import RmqttThings.Files.Uploads

namespace RmqttThings.Files

open Api (ApiError)
open Commands (segments startsWith startsWith_iff)

-- The client as the download handler uses it.
structure DownloadClient extends S3Client where
  expiredSeconds : UInt32
  getPresignedDownloadUrl : (key : String) → Except String String

-- A download URL is computed locally, so signing one fails for no key.
def DownloadClient.Signs (s3Client : DownloadClient) : Prop :=
  ∀ key, ∃ url, s3Client.getPresignedDownloadUrl key = .ok url

structure FileDownloadUrlResponse where
  url : String
  expiresInSeconds : UInt64

-- Neither upload has a product or a device.
def adminFileUploadHandler (s3Client : Option S3Client) (uuid : String)
    (request : FileUploadRequest) :
    Except ApiError Issued :=
  match s3Client with
  | some s3Client => issuePost s3Client uuid "" "" request
  | none => .error (.internal "S3 client not configured")

def factoryFileUploadHandler (s3Client : Option S3Client) (uuid : String)
    (request : FileUploadRequest) :
    Except ApiError Issued :=
  match s3Client with
  | none => .error (.serviceUnavailable "S3 client not configured")
  | some s3Client => issuePost s3Client uuid "" "" request

def adminFileDownloadUrlHandler (s3Client : Option DownloadClient) (fileKey : String) :
    Except ApiError FileDownloadUrlResponse :=
  match validateFileKey fileKey with
  | .error error => .error error
  | .ok () =>
      match s3Client with
      | none => .error (.serviceUnavailable "S3 client not configured")
      | some s3Client =>
          if !isFileUploadDirectoryAllowed s3Client.directories "" "" (directoryOf fileKey) then
            .error (.forbiddenWith "Directory not allowed")
          else
            match s3Client.getPresignedDownloadUrl fileKey with
            | .error _ => .error (.internal "Failed to get presigned download url")
            | .ok url => .ok ⟨url, s3Client.expiredSeconds.toUInt64⟩

-- The key passes both checks of the download handler, and it answers with a URL.
structure Downloadable (s3Client : DownloadClient) (key : String) : Prop where
  valid : validateFileKey key = .ok ()
  allowed : isFileUploadDirectoryAllowed s3Client.directories "" "" (directoryOf key) = true
  answered : ∃ response, adminFileDownloadUrlHandler (some s3Client) key = .ok response

-- The bytes of the UUID and of the underscore after it.
def frontSize (request : FileUploadRequest) : Nat := if request.useOriginName then 0 else 37

-- The requests whose object can be fetched again: the directory is a relative one, the key is
-- short enough, nothing goes up, and a file name with directories of its own leads to where
-- the rules allow it.
structure Fetchable (rules : List String) (uuid : String) (request : FileUploadRequest) : Prop where
  relative : request.directory ≠ "" ∧ startsWith request.directory "/" = false
  short : request.directory.utf8ByteSize + 1 + frontSize request + request.fileName.utf8ByteSize ≤
    1024
  inside : ".." ∉ segments request.directory ∧ ".." ∉ ownSegments request
  below : ∀ sub ∈ ownDirectory uuid request,
    (∃ rule ∈ rules, wildcard (instantiate rule "" "") = true ∧
      ruleAllows (instantiate rule "" "") request.directory = true) ∨
    isFileUploadDirectoryAllowed rules "" "" (request.directory ++ "/" ++ sub) = true

section Checks

variable {key : String}

theorem validateFileKey_ok_iff :
    validateFileKey key = .ok () ↔
      key ≠ "" ∧ key.utf8ByteSize ≤ 1024 ∧ startsWith key "/" = false ∧ ".." ∉ segments key := by
  have hdots : (segments key).any (· == "..") = true ↔ ".." ∈ segments key := by simp
  unfold validateFileKey
  split_ifs with h
  · simp only [false_iff]
    rintro ⟨hempty, hsize, hslash, hinside⟩
    rcases h with h | h | h | h
    · exact hempty (String.isEmpty_iff.mp h)
    · omega
    · rw [hslash] at h
      cases h
    · exact hinside (hdots.mp h)
  · simp only [not_or, Nat.not_lt, Bool.not_eq_true] at h
    obtain ⟨hempty, hsize, hslash, hinside⟩ := h
    simp only [true_iff]
    refine ⟨?_, hsize, hslash, ?_⟩
    · rintro rfl
      simp at hempty
    · intro hmem
      rw [hdots.mpr hmem] at hinside
      cases hinside

theorem downloadable_iff {s3Client : DownloadClient} (hsigns : s3Client.Signs) :
    Downloadable s3Client key ↔ validateFileKey key = .ok () ∧
      isFileUploadDirectoryAllowed s3Client.directories "" "" (directoryOf key) = true := by
  constructor
  · exact fun h => ⟨h.valid, h.allowed⟩
  · rintro ⟨hvalid, hallowed⟩
    obtain ⟨url, hurl⟩ := hsigns key
    refine ⟨hvalid, hallowed, ⟨url, s3Client.expiredSeconds.toUInt64⟩, ?_⟩
    simp only [adminFileDownloadUrlHandler, hvalid, hallowed, hurl]
    rfl

end Checks

section Keys

variable {uuid : String}

theorem objectKey_ne_empty (uuid : String) (request : FileUploadRequest) :
    objectKey uuid request ≠ "" := by
  intro hempty
  have hmem : '/' ∈ (objectKey uuid request).toList := by simp [objectKey, String.toList_append]
  rw [hempty] at hmem
  cases hmem

theorem size_objectKey (hsize : uuid.utf8ByteSize = 36) (request : FileUploadRequest) :
    (objectKey uuid request).utf8ByteSize =
      request.directory.utf8ByteSize + 1 + frontSize request + request.fileName.utf8ByteSize := by
  have hslash : "/".utf8ByteSize = 1 := rfl
  have hfront : "_".utf8ByteSize = 1 := rfl
  unfold objectKey frontSize
  split_ifs
  · simp only [String.utf8ByteSize_append, hslash]
  · simp only [String.utf8ByteSize_append, hslash, hfront, hsize]
    omega

-- The key is absolute when the directory is, or when it is empty.
theorem startsWith_objectKey (uuid : String) (request : FileUploadRequest) :
    startsWith (objectKey uuid request) "/" = false ↔
      request.directory ≠ "" ∧ startsWith request.directory "/" = false := by
  rw [← Bool.not_eq_true, ← Bool.not_eq_true, startsWith_iff, startsWith_iff, objectKey,
    toList_join]
  cases hchars : request.directory.toList with
  | nil =>
      have hempty : request.directory = "" := String.toList_eq_nil_iff.mp hchars
      simp [hempty]
  | cons char chars =>
      have hne : request.directory ≠ "" := by
        intro hempty
        simp [hempty] at hchars
      simp [hne, List.cons_prefix_cons]

theorem validateFileKey_objectKey (huuid : '/' ∉ uuid.toList) (hsize : uuid.utf8ByteSize = 36)
    (request : FileUploadRequest) :
    validateFileKey (objectKey uuid request) = .ok () ↔
      (request.directory ≠ "" ∧ startsWith request.directory "/" = false) ∧
      request.directory.utf8ByteSize + 1 + frontSize request + request.fileName.utf8ByteSize ≤
        1024 ∧
      ".." ∉ segments request.directory ∧ ".." ∉ ownSegments request := by
  rw [validateFileKey_ok_iff, size_objectKey hsize, startsWith_objectKey, dots_mem_objectKey huuid,
    not_or]
  have hempty := objectKey_ne_empty uuid request
  constructor
  · rintro ⟨-, hshort, hrelative, hinside⟩
    exact ⟨hrelative, hshort, hinside⟩
  · rintro ⟨hrelative, hshort, hinside⟩
    exact ⟨hempty, hshort, hrelative, hinside⟩

end Keys

-- An object that the admin or the factory has uploaded can be fetched again exactly when its
-- request is such a request.
theorem downloads_follow_uploads_iff (s3Client : DownloadClient) (hsigns : s3Client.Signs)
    (uuid : String) (huuid : '/' ∉ uuid.toList) (hsize : uuid.utf8ByteSize = 36)
    (request : FileUploadRequest) (issued : Issued)
    (h : adminFileUploadHandler (some s3Client.toS3Client) uuid request = .ok issued ∨
      factoryFileUploadHandler (some s3Client.toS3Client) uuid request = .ok issued) :
    Downloadable s3Client issued.key ↔ Fetchable s3Client.directories uuid request := by
  have hpost : issuePost s3Client.toS3Client uuid "" "" request = .ok issued := h.elim id id
  obtain ⟨hallowed, post, rfl⟩ := issuePost_eq hpost
  rw [downloadable_iff hsigns, validateFileKey_objectKey huuid hsize,
    allowed_objectKey huuid hallowed]
  constructor
  · rintro ⟨⟨hrelative, hshort, hinside⟩, hbelow⟩
    exact ⟨hrelative, hshort, hinside, hbelow⟩
  · rintro ⟨hrelative, hshort, hinside, hbelow⟩
    exact ⟨⟨hrelative, hshort, hinside⟩, hbelow⟩

section Demo

def demoClient : DownloadClient where
  directories := ["ota/*", "firmware", "/*"]
  getPresignedPost key := .ok ⟨"http://s3/bucket", [("key", key)]⟩
  expiredSeconds := 60
  getPresignedDownloadUrl key := .ok ("http://s3/bucket/" ++ key)

theorem demoClient_signs : demoClient.Signs := fun _ => ⟨_, rfl⟩

def demoUpload (request : FileUploadRequest) : Issued :=
  let key := objectKey demoEnv.uuid request
  ⟨demoClient.directories, "", "", request, key, ⟨"http://s3/bucket", [("key", key)]⟩⟩

theorem demo_uploaded {request : FileUploadRequest}
    (hallowed : isFileUploadDirectoryAllowed demoClient.directories "" "" request.directory =
      true) :
    adminFileUploadHandler (some demoClient.toS3Client) demoEnv.uuid request =
      .ok (demoUpload request) := by
  rw [adminFileUploadHandler, issuePost, if_neg (by simp [hallowed])]
  rfl

theorem firmware_fetched :
    Downloadable demoClient (demoUpload ⟨"v1.bin", "ota", false, none⟩).key :=
  (downloads_follow_uploads_iff demoClient demoClient_signs demoEnv.uuid (by decide +kernel)
    (by decide +kernel)
    ⟨"v1.bin", "ota", false, none⟩ _ (.inl (demo_uploaded (by decide +kernel)))).mpr
      ⟨by decide +kernel, by decide +kernel, by decide +kernel, by decide +kernel⟩

-- A name that goes up, a directory that is empty, a long name, and a name that goes below a
-- directory that is allowed alone.
theorem uploads_not_fetched :
    (adminFileUploadHandler (some demoClient.toS3Client) demoEnv.uuid ⟨"../x.bin", "ota",
      true, none⟩ =
        .ok (demoUpload ⟨"../x.bin", "ota", true, none⟩) ∧
      ¬Downloadable demoClient (demoUpload ⟨"../x.bin", "ota", true, none⟩).key) ∧
    (adminFileUploadHandler (some demoClient.toS3Client) demoEnv.uuid ⟨"x.bin", "", false, none⟩ =
        .ok (demoUpload ⟨"x.bin", "", false, none⟩) ∧
      ¬Downloadable demoClient (demoUpload ⟨"x.bin", "", false, none⟩).key) ∧
    (adminFileUploadHandler (some demoClient.toS3Client) demoEnv.uuid
      ⟨String.ofList (.replicate 1024 'x'), "ota", true, none⟩ =
        .ok (demoUpload ⟨String.ofList (.replicate 1024 'x'), "ota", true, none⟩) ∧
      ¬Downloadable demoClient (demoUpload ⟨String.ofList (.replicate 1024 'x'), "ota", true,
        none⟩).key) ∧
    adminFileUploadHandler (some demoClient.toS3Client) demoEnv.uuid ⟨"sub/x.bin", "firmware",
      true, none⟩ =
        .ok (demoUpload ⟨"sub/x.bin", "firmware", true, none⟩) ∧
      ¬Downloadable demoClient (demoUpload ⟨"sub/x.bin", "firmware", true, none⟩).key := by
  refine ⟨⟨demo_uploaded (by decide +kernel), ?_⟩, ⟨demo_uploaded (by decide +kernel), ?_⟩,
    ⟨demo_uploaded (by decide +kernel), ?_⟩, demo_uploaded (by decide +kernel), ?_⟩
  · exact fun hfetched => absurd hfetched.valid (by decide +kernel)
  · exact fun hfetched => absurd hfetched.valid (by decide +kernel)
  · exact fun hfetched => absurd hfetched.valid (by decide +kernel)
  · exact fun hfetched => absurd hfetched.allowed (by decide +kernel)

end Demo

end RmqttThings.Files
