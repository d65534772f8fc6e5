import RmqttThings.Certs.World

namespace RmqttThings.Certs

open Effects
open Api (ApiError databaseError)
open Commands (validateIdentifier)

structure IssueCertRequest where
  productId : String
  deviceId : String
  force : Bool
  startAt : OffsetDateTime
  endAt : OffsetDateTime

structure UpdateCertStatusRequest where
  id : Option Int
  productId : String
  deviceId : String
  status : Int

def alreadyValid : ApiError := .badRequest "Certificate already exists and is valid"

def caFileError : ApiError := .internal "could not get CA file"

-- The check that a request without `force` makes: the newest certificate is not valid any more.
def checkExisting (req : IssueCertRequest) : M (Except ApiError Unit) :=
  if req.force then return .ok ()
  else do
    match ← query (.findByDeviceId req.productId req.deviceId) with
    | .error _ => return .error databaseError
    | .ok none => return .ok ()
    | .ok (some cert) =>
        if cert.status = .normal then do
          let now ← Prog.perform Op.nowUtc
          if now < cert.endAt then return .error alreadyValid else return .ok ()
        else return .ok ()

-- The rest of `issue_cert_handler`, from the files of the CA on.
def issueChecked (req : IssueCertRequest) : M (Except ApiError IssueCertResponse) := do
  match ← Prog.perform (Op.readToString "ca.pem") with
  | .error _ => return .error caFileError
  | .ok caCertPem =>
      match ← Prog.perform (Op.readToString "ca.key") with
      | .error _ => return .error caFileError
      | .ok caKeyPem =>
          match ← Prog.perform (Op.issueCert caCertPem caKeyPem req.productId req.deviceId
            req.startAt req.endAt) with
          | .error _ => return .error (.internal "Certificate generation failed")
          | .ok issued =>
              match ← query (.create ⟨req.productId, req.deviceId, issued.certPem, req.startAt,
                req.endAt⟩) with
              | .error _ => return .error databaseError
              | .ok () =>
                  match ← query (.upsertDevice req.productId req.deviceId .manual) with
                  | .error _ => return .error databaseError
                  | .ok () => return .ok issued

def issueCertHandler (req : IssueCertRequest) : M (Except ApiError IssueCertResponse) :=
  match validateIdentifier req.productId "product_id" with
  | .error error => return .error error
  | .ok () =>
      match validateIdentifier req.deviceId "device_id" with
      | .error error => return .error error
      | .ok () => do
          match ← checkExisting req with
          | .error error => return .error error
          | .ok () => issueChecked req

def certMissing : ApiError := .notFound "证书不存在"

def notNormal : ApiError := .badRequest "只能操作 Normal 状态的证书"

-- The target of a change of status: anything but `Normal`.
def targetStatus (status : Int) : Except ApiError CertStatus :=
  match CertStatus.tryFrom status with
  | none => .error (.badRequest "无效的证书状态")
  | some target =>
      if target = .normal then .error (.badRequest "不允许将证书状态设置为 Normal") else .ok target

theorem ne_normal_of_targetStatus {status : Int} {target : CertStatus}
    (h : targetStatus status = .ok target) :
    target ≠ .normal := by
  unfold targetStatus at h
  split at h
  · cases h
  · split_ifs at h with hnormal
    cases h
    exact hnormal

-- Both forms look a certificate up, refuse if it is not `Normal`, and update; what the update
-- has affected is not looked at.
def updateFound (lookup : M (Except String (Option CertIssue))) (update : M (Except String Unit)) :
    M (Except ApiError Unit) := do
  match ← lookup with
  | .error _ => return .error databaseError
  | .ok none => return .error certMissing
  | .ok (some cert) =>
      if cert.status ≠ .normal then return .error notNormal
      else
        match ← update with
        | .error _ => return .error databaseError
        | .ok () => return .ok ()

-- `204` is the answer without an error.
def updateCertStatusHandler (req : UpdateCertStatusRequest) : M (Except ApiError Unit) :=
  match targetStatus req.status with
  | .error error => return .error error
  | .ok target =>
      match req.id with
      | some certId =>
          updateFound (query (.findById certId)) (query (.updateStatusById certId target))
      | none =>
          match validateIdentifier req.productId "product_id" with
          | .error error => return .error error
          | .ok () =>
              match validateIdentifier req.deviceId "device_id" with
              | .error error => return .error error
              | .ok () =>
                  updateFound (query (.findByDeviceId req.productId req.deviceId))
                    (query (.updateStatus req.productId req.deviceId target))

inductive Request where
  | issue (req : IssueCertRequest)
  | update (req : UpdateCertStatusRequest)

inductive Reply where
  | issued (answer : Except ApiError IssueCertResponse)
  | updated (answer : Except ApiError Unit)

def serve : Request → M Reply
  | .issue req => do return .issued (← issueCertHandler req)
  | .update req => do return .updated (← updateCertStatusHandler req)

end RmqttThings.Certs
