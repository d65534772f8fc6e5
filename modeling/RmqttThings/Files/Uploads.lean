import RmqttThings.Commands.World
import RmqttThings.Files.Directories

namespace RmqttThings.Files

open Api (ApiError ok_of_bind)
open Commands (AckStatus MqttPayload extractAndValidateProductId segments validateIdentifier)
open Devices (rsplitOnce)

structure FileUploadRequest where
  fileName : String
  directory : String
  useOriginName : Bool
  fileType : Option String

namespace FileUploadRequest

-- An optional text may be missing or null.
def readFileType : Option Json → Option (Option String)
  | none | some .null => some none
  | some (.string text) => some (some text)
  | some _ => none

-- `serde_json::from_value`: an object, or the fields in their order.
def fromValue : Json → Option FileUploadRequest
  | .object fields =>
      match fields.lookup "fileName", fields.lookup "directory", fields.lookup "useOriginName" with
      | some (.string fileName), some (.string directory), some (.bool useOriginName) =>
          (readFileType (fields.lookup "fileType")).map fun fileType => ⟨fileName, directory,
            useOriginName, fileType⟩
      | _, _, _ => none
  | .array (.string fileName :: .string directory :: .bool useOriginName :: rest) =>
      if rest.length ≤ 1 then
        (readFileType rest.head?).map fun fileType => ⟨fileName, directory, useOriginName, fileType⟩
      else none
  | _ => none

end FileUploadRequest

structure PresignedPost where
  url : String
  fields : List (String × String)

-- The bucket signs a post for exactly the key.
structure S3Client where
  directories : List String
  getPresignedPost : (key : String) → Except String PresignedPost

-- `uuid` is the one that the request draws, if it draws one.
structure UploadEnv where
  s3Client : Option S3Client
  uuid : String

structure RMqttPublishMessage where
  clientId : String
  topic : String
  payload : Except String MqttPayload

structure MqttResponse where
  id : String
  code : Int32
  data : Option Json

-- A policy that has been signed, with what it was asked for.
structure Issued where
  rules : List String
  productId : String
  deviceId : String
  request : FileUploadRequest
  key : String
  post : PresignedPost

-- An accepted message: the policy, and the response that is published on the reply topic.
structure Accepted where
  issued : Option Issued
  reply : Option (String × MqttResponse)

def objectKey (uuid : String) (request : FileUploadRequest) : String :=
  let fileName := if request.useOriginName then request.fileName else uuid ++ "_" ++
      request.fileName
  request.directory ++ "/" ++ fileName

-- From the check of the directory to the signed policy.
def issuePost (s3Client : S3Client) (uuid productId deviceId : String)
    (request : FileUploadRequest) :
    Except ApiError Issued :=
  if !isFileUploadDirectoryAllowed s3Client.directories productId deviceId request.directory then
    .error (.badRequest "Directory not allowed")
  else
    match s3Client.getPresignedPost (objectKey uuid request) with
    | .error _ => .error (.internal "Failed to get presigned post")
    | .ok post =>
        .ok ⟨s3Client.directories, productId, deviceId, request, objectKey uuid request, post⟩

def replyTo (msg : RMqttPublishMessage) (payload : MqttPayload) (response : MqttResponse) :
    Option (String × MqttResponse) :=
  if payload.ack = AckStatus.yes then some (msg.topic ++ "_reply", response) else none

-- `json!` of the response: its fields in key order.
def PresignedPost.toJson (post : PresignedPost) : Json :=
  .object [("fields", .object (post.fields.map fun field => (field.1, .string field.2))),
    ("url", .string post.url)]

def fileUploadHandler (env : UploadEnv) (msg : RMqttPublishMessage) : Except ApiError Accepted :=
  match msg.payload with
  | .error _ => .error (.badRequest "Invalid payload format")
  | .ok payload =>
      match env.s3Client with
      | none =>
          let data := Json.object [("message", .string "do not support file upload")]
          .ok ⟨none, replyTo msg payload ⟨payload.id, 503, some data⟩⟩
      | some s3Client =>
          match FileUploadRequest.fromValue (payload.params.getD .null) with
          | none => .error (.badRequest "Invalid params for FileUploadRequest")
          | some request => do
              let productId ← extractAndValidateProductId msg.topic
              validateIdentifier msg.clientId "device_id"
              let issued ← issuePost s3Client env.uuid productId msg.clientId request
              return ⟨some issued, replyTo msg payload ⟨payload.id, 200, some issued.post.toJson⟩⟩

-- A policy for an object that the rules allow to the device.
def KeyConfined (issued : Issued) : Prop :=
  isFileUploadDirectoryAllowed issued.rules issued.productId issued.deviceId
    (directoryOf issued.key) = true ∧ ".." ∉ segments issued.key

-- The directories that the file name itself goes through.
def ownDirectory (uuid : String) (request : FileUploadRequest) : Option String :=
  ((rsplitOnce '/' request.fileName).map Prod.fst).map fun path =>
    if request.useOriginName then path else uuid ++ "_" ++ path

-- The segments that the file name contributes as they are: the first one gets the
-- prefix, if there is one.
def ownSegments (request : FileUploadRequest) : List String :=
  if request.useOriginName then segments request.fileName else (segments request.fileName).tail

-- The file name stays in the directory, or a rule with a star lets everything below the
-- directory through, or a rule names where the file name leads; and nothing goes up.
def Contained (uuid : String) (issued : Issued) : Prop :=
  (∀ sub ∈ ownDirectory uuid issued.request,
    (∃ rule ∈ issued.rules, wildcard (instantiate rule issued.productId issued.deviceId) = true ∧
      ruleAllows (instantiate rule issued.productId issued.deviceId) issued.request.directory =
        true) ∨
    isFileUploadDirectoryAllowed issued.rules issued.productId issued.deviceId
      (issued.request.directory ++ "/" ++ sub) = true) ∧
  ".." ∉ segments issued.request.directory ∧ ".." ∉ ownSegments issued.request

section Handler

variable {env : UploadEnv} {msg : RMqttPublishMessage} {issued : Issued}
  {reply : Option (String × MqttResponse)}

-- A signed policy is for the request, whose directory has passed the check.
theorem issuePost_eq {s3Client : S3Client} {uuid productId deviceId : String}
    {request : FileUploadRequest}
    (h : issuePost s3Client uuid productId deviceId request = .ok issued) :
    isFileUploadDirectoryAllowed s3Client.directories productId deviceId request.directory = true ∧
      ∃ post, issued = ⟨s3Client.directories, productId, deviceId, request, objectKey uuid request,
        post⟩ := by
  unfold issuePost at h
  by_cases hallowed :
    isFileUploadDirectoryAllowed s3Client.directories productId deviceId request.directory = true
  · rw [if_neg (by simp [hallowed])] at h
    cases hpost : s3Client.getPresignedPost (objectKey uuid request) with
    | error error => simp [hpost] at h
    | ok post =>
        simp only [hpost, Except.ok.injEq] at h
        exact ⟨hallowed, post, h.symm⟩
  · rw [if_pos (by simp [hallowed])] at h
    cases h

-- What a policy says about the checks that the request has passed.
theorem issuePost_ok {s3Client : S3Client} {uuid productId deviceId : String}
    {request : FileUploadRequest}
    (h : issuePost s3Client uuid productId deviceId request = .ok issued) :
    isFileUploadDirectoryAllowed issued.rules issued.productId issued.deviceId
      issued.request.directory = true ∧ issued.key = objectKey uuid issued.request := by
  obtain ⟨hallowed, post, rfl⟩ := issuePost_eq h
  exact ⟨hallowed, rfl⟩

theorem fileUploadHandler_ok {payload : MqttPayload} {s3Client : S3Client}
    {request : FileUploadRequest} {productId : String} (hpayload : msg.payload = .ok payload)
    (hs3 : env.s3Client = some s3Client)
    (hrequest : FileUploadRequest.fromValue (payload.params.getD .null) = some request)
    (hproduct : extractAndValidateProductId msg.topic = .ok productId)
    (hdevice : validateIdentifier msg.clientId "device_id" = .ok ())
    (hpost : issuePost s3Client env.uuid productId msg.clientId request = .ok issued) :
    fileUploadHandler env msg =
      .ok ⟨some issued, replyTo msg payload ⟨payload.id, 200, some issued.post.toJson⟩⟩ := by
  simp only [fileUploadHandler, hpayload, hs3, hrequest, hproduct, hdevice, bind, Except.bind,
    hpost]
  rfl

theorem fileUploadHandler_issued (h : fileUploadHandler env msg = .ok ⟨some issued, reply⟩) :
    isFileUploadDirectoryAllowed issued.rules issued.productId issued.deviceId
      issued.request.directory = true ∧ issued.key = objectKey env.uuid issued.request := by
  unfold fileUploadHandler at h
  cases hpayload : msg.payload with
  | error error => simp [hpayload] at h
  | ok payload =>
      cases hs3 : env.s3Client with
      | none => simp [hpayload, hs3] at h
      | some s3Client =>
          cases hrequest : FileUploadRequest.fromValue (payload.params.getD .null) with
          | none => simp [hpayload, hs3, hrequest] at h
          | some request =>
              simp only [hpayload, hs3, hrequest] at h
              obtain ⟨productId, -, hrest⟩ := ok_of_bind h
              obtain ⟨_, -, hrest⟩ := ok_of_bind hrest
              obtain ⟨post, hpost, hrest⟩ := ok_of_bind hrest
              cases hrest
              exact issuePost_ok hpost

end Handler

section Keys

variable {uuid : String}

theorem slash_notMem_front (huuid : '/' ∉ uuid.toList) : '/' ∉ (uuid ++ "_").toList := by
  rw [String.toList_append, List.mem_append, not_or]
  exact ⟨huuid, by decide⟩

theorem directoryOf_objectKey (huuid : '/' ∉ uuid.toList) (request : FileUploadRequest) :
    directoryOf (objectKey uuid request) =
      (ownDirectory uuid request).elim request.directory fun sub => request.directory ++ "/" ++
        sub := by
  rw [objectKey, directoryOf_join, ownDirectory]
  cases huse : request.useOriginName with
  | true => simp [Function.comp_def]
  | false =>
      simp only [Bool.false_eq_true, if_false]
      rw [rsplitOnce_append_front _ _ (slash_notMem_front huuid)]

-- A segment with the prefix in front has an underscore.
theorem front_ne_dots (uuid first : String) : uuid ++ "_" ++ first ≠ ".." := by
  intro heq
  have hmem : '_' ∈ (uuid ++ "_" ++ first).toList := by simp [String.toList_append]
  rw [heq] at hmem
  exact absurd hmem (by decide)

theorem dots_mem_objectKey (huuid : '/' ∉ uuid.toList) (request : FileUploadRequest) :
    ".." ∈ segments (objectKey uuid request) ↔
      ".." ∈ segments request.directory ∨ ".." ∈ ownSegments request := by
  rw [objectKey, segments_join, List.mem_append, ownSegments]
  cases huse : request.useOriginName with
  | true => simp
  | false =>
      simp only [Bool.false_eq_true, if_false]
      rw [segments_append (slash_notMem_front huuid)]
      cases segments request.fileName with
      | nil => simp
      | cons first rest =>
          have hfirst := (front_ne_dots uuid first).symm
          simp [hfirst]

-- The directory of the key is allowed when the file name does not lead out of what the rules allow.
theorem allowed_objectKey (huuid : '/' ∉ uuid.toList) {rules : List String}
    {productId deviceId : String} {request : FileUploadRequest}
    (hallowed : isFileUploadDirectoryAllowed rules productId deviceId request.directory = true) :
    isFileUploadDirectoryAllowed rules productId deviceId (directoryOf (objectKey uuid request)) =
      true ↔ ∀ sub ∈ ownDirectory uuid request,
        (∃ rule ∈ rules, wildcard (instantiate rule productId deviceId) = true ∧
          ruleAllows (instantiate rule productId deviceId) request.directory = true) ∨
        isFileUploadDirectoryAllowed rules productId deviceId (request.directory ++ "/" ++ sub) =
          true := by
  rw [directoryOf_objectKey huuid]
  cases hown : ownDirectory uuid request with
  | none => simp [hallowed]
  | some sub =>
      simp only [Option.elim_some, Option.mem_some_iff, forall_eq']
      constructor
      · exact .inr
      · intro hcontained
        rcases hcontained with hwild | hsub
        · exact allowed_below hwild sub
        · exact hsub

end Keys

-- A policy is confined exactly when the file name does not lead out of what the rules allow.
theorem uploads_confined_iff (env : UploadEnv) (huuid : '/' ∉ env.uuid.toList)
    (msg : RMqttPublishMessage) (issued : Issued) (reply : Option (String × MqttResponse))
    (h : fileUploadHandler env msg = .ok ⟨some issued, reply⟩) :
    KeyConfined issued ↔ Contained env.uuid issued := by
  obtain ⟨hallowed, hkey⟩ := fileUploadHandler_issued h
  rw [KeyConfined, Contained, hkey, allowed_objectKey huuid hallowed, dots_mem_objectKey huuid,
    not_or]

section Demo

def demoS3 : S3Client where
  directories := ["$\x7bproductId\x7d/$\x7bdeviceId\x7d/*", "firmware"]
  getPresignedPost key := .ok ⟨"http://s3/bucket", [("key", key)]⟩

def demoEnv : UploadEnv := ⟨some demoS3, "8c2f7b1e-0d34-4a51-9f6e-2b7c5d8e9a10"⟩

def demoPayload (fileName directory : String) (useOriginName : Bool) : MqttPayload where
  id := "7"
  ack := .no
  params := some (.array [.string fileName, .string directory, .bool useOriginName])

def demoMessage (fileName directory : String) (useOriginName : Bool) : RMqttPublishMessage where
  clientId := "d1"
  topic := "p/d1/thing/file/upload"
  payload := .ok (demoPayload fileName directory useOriginName)

def demoIssued (fileName directory : String) (useOriginName : Bool) : Issued :=
  let request : FileUploadRequest := ⟨fileName, directory, useOriginName, none⟩
  let key := objectKey demoEnv.uuid request
  ⟨demoS3.directories, "p", "d1", request, key, ⟨"http://s3/bucket", [("key", key)]⟩⟩

theorem demo_handled {fileName directory : String} {useOriginName : Bool}
    (hallowed : isFileUploadDirectoryAllowed demoS3.directories "p" "d1" directory = true) :
    fileUploadHandler demoEnv (demoMessage fileName directory useOriginName) =
      .ok ⟨some (demoIssued fileName directory useOriginName), none⟩ := by
  have hproduct : extractAndValidateProductId "p/d1/thing/file/upload" = .ok "p" := by
    decide +kernel
  have hdevice : validateIdentifier "d1" "device_id" = .ok () := by decide +kernel
  have hpayload : (demoMessage fileName directory useOriginName).payload =
      .ok (demoPayload fileName directory useOriginName) := rfl
  have hrequest : FileUploadRequest.fromValue
      ((demoPayload fileName directory useOriginName).params.getD .null) =
      some ⟨fileName, directory, useOriginName, none⟩ := by
    rw [demoPayload, Option.getD_some, FileUploadRequest.fromValue, if_pos (by simp)]
    rfl
  have hpost : issuePost demoS3 demoEnv.uuid "p" "d1" ⟨fileName, directory, useOriginName, none⟩ =
      .ok (demoIssued fileName directory useOriginName) := by
    rw [issuePost, if_neg (by simp [hallowed])]
    rfl
  have hs3 : demoEnv.s3Client = some demoS3 := rfl
  exact fileUploadHandler_ok hpayload hs3 hrequest hproduct hdevice hpost

theorem log_upload_confined : KeyConfined (demoIssued "log.txt" "p/d1/logs" false) :=
  (uploads_confined_iff demoEnv (by decide +kernel) (demoMessage "log.txt" "p/d1/logs" false) _ none
    (demo_handled (by decide +kernel))).mpr
      ⟨by decide +kernel, by decide +kernel, by decide +kernel⟩

-- A name that goes up, and a name that goes below a directory that is allowed alone.
theorem other_directories_signed :
    (fileUploadHandler demoEnv (demoMessage "../../p/d2/x" "p/d1" true) =
        .ok ⟨some (demoIssued "../../p/d2/x" "p/d1" true), none⟩ ∧
      ¬KeyConfined (demoIssued "../../p/d2/x" "p/d1" true) ∧
      validateFileKey (demoIssued "../../p/d2/x" "p/d1" true).key =
        .error (.badRequest "Invalid fileKey")) ∧
    fileUploadHandler demoEnv (demoMessage "sub/x" "firmware" false) =
        .ok ⟨some (demoIssued "sub/x" "firmware" false), none⟩ ∧
      ¬KeyConfined (demoIssued "sub/x" "firmware" false) := by
  refine ⟨⟨demo_handled (by decide +kernel), ?_, by decide +kernel⟩,
    demo_handled (by decide +kernel), ?_⟩
  · intro hconfined
    exact hconfined.2 (by decide +kernel)
  · intro hconfined
    exact absurd hconfined.1 (by decide +kernel)

end Demo

end RmqttThings.Files
