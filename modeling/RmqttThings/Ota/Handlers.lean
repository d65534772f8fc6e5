import RmqttThings.Commands.Topics
import RmqttThings.Ota.Versions
import RmqttThings.Ota.World

namespace RmqttThings.Ota

open Effects
open Api (ApiError databaseError)
open Commands (AckStatus HttpReply extractAndValidateProductId validateIdentifier)

structure ResponseConfig where
  clientid : String
  qos : UInt8
  retain : Bool

-- The retries are those of the property commands.
structure MqttConfig where
  response : ResponseConfig
  retries : UInt8

structure OtaReport where
  key : String
  version : String

structure OtaReportParams where
  params : List OtaReport
  id : String
  ack : AckStatus

-- The body of a report after base64 and JSON decoding.
inductive ReportPayload where
  | badEncoding
  | badFormat
  | report (params : OtaReportParams)

structure RMqttPublishMessage where
  clientId : String
  topic : String
  payload : ReportPayload

section Devices

variable (config : MqttConfig)

-- One attempt; its outcome is not looked at.
def ackResponse (id topic : String) : M Unit := do
  let _ ← Prog.perform (Op.postPublish
    { topic := topic ++ "_reply"
      clientid := config.response.clientid
      payload := .response id 200
      encoding := some "plain"
      qos := some config.response.qos
      retain := some config.response.retain })
  return ()

-- The attempts of one message: the first one that the broker accepts is the last.
def publishAttempts (request : PublishRequest) : (attempts : Nat) → M Bool
  | 0 => return false
  | attempts + 1 => do
      let reply ← Prog.perform (Op.postPublish request)
      if reply.isSuccess then return true else publishAttempts request attempts

def publishCommand (request : PublishRequest) : M Bool :=
  publishAttempts request (config.retries.toNat + 1)

-- The checks before the loop, in the order of the source.
def parseReport (msg : RMqttPublishMessage) : Except ApiError (String × OtaReportParams) := do
  let productId ← extractAndValidateProductId msg.topic
  validateIdentifier msg.clientId "device_id"
  match msg.payload with
  | .badEncoding => throw (.badRequest "Invalid payload format")
  | .badFormat => throw (.badRequest "Invalid params for OtaReportParams")
  | .report params => return (productId, params)

-- The loop over the entries of a report; each is validated, recorded and looked up in turn.
def processReports (productId deviceId : String) :
    List OtaReport → List OtaVersion → M (Except ApiError (List OtaVersion))
  | [], updates => return .ok updates
  | report :: reports, updates => do
      match parseSemverToInt report.version with
      | .error e => return .error e
      | .ok version =>
          let now ← nowUtc
          match ← query (.upsertDeviceVersion productId deviceId report.key version now) with
          | .error _ => return .error databaseError
          | .ok _ =>
              match ← query (.getOtaUpdate productId deviceId report.key version) with
              | .error _ => return .error databaseError
              | .ok none => processReports productId deviceId reports updates
              | .ok (some otaVersion) =>
                  processReports productId deviceId reports (updates ++ [otaVersion])

def upgradeParam (row : OtaVersion) : UpgradeParam :=
  ⟨row.key, row.fileKey, formatSemverFromInt row.version, row.log⟩

def upgradeRequest (productId deviceId id : String) (updates : List OtaVersion) :
    PublishRequest where
  topic := "/" ++ productId ++ "/" ++ deviceId ++ "/ota/upgrade"
  clientid := config.response.clientid
  payload := .upgrade id .no (updates.map upgradeParam)
  encoding := none
  qos := some 1
  retain := some false

-- One push for all the upgrades of a report.
def pushUpdates (productId deviceId id : String) (updates : List OtaVersion) :
    M (Except ApiError Unit) := do
  if updates.isEmpty then return .ok ()
  else if ← publishCommand config (upgradeRequest config productId deviceId id
    updates) then return .ok ()
  else return .error (.internal "Failed to publish OTA upgrade message")

def answerReport (msg : RMqttPublishMessage) (productId : String) (report : OtaReportParams)
    (updates : List OtaVersion) :
    M (Except ApiError Unit) := do
  if report.ack = .yes then ackResponse config report.id msg.topic
  pushUpdates config productId msg.clientId report.id updates

def otaVersionPost (msg : RMqttPublishMessage) : M (Except ApiError Unit) := do
  match parseReport msg with
  | .error e => return .error e
  | .ok (productId, report) =>
      match ← processReports productId msg.clientId report.params [] with
      | .error e => return .error e
      | .ok updates => answerReport config msg productId report updates

end Devices

section Admin

structure CreateOtaVersionRequest where
  productId : String
  key : String
  version : String
  maxVersion : Option String
  minVersion : String
  fileKey : String
  log : Option Json
  deviceIds : Option (List String)
  binLength : Int64
  binMd5 : String

structure UpdateOtaVersionRequest where
  maxVersion : Option String
  minVersion : Option String
  fileKey : Option String
  log : Option Json
  deviceIds : Option (List String)
  binLength : Option Int64
  binMd5 : Option String

def validateOptional (version : Option String) (fieldName : String) : Except ApiError Unit :=
  match version with
  | none => .ok ()
  | some text => validateVersionFormat text fieldName

def validateCreate (req : CreateOtaVersionRequest) : Except ApiError Unit := do
  validateIdentifier req.productId "product_id"
  validateIdentifier req.key "key"
  validateVersionFormat req.version "version"
  validateVersionFormat req.minVersion "min_version"
  validateOptional req.maxVersion "max_version"

-- `Option::map` and `transpose`.
def parseOptional : Option String → Option (Option Int32)
  | none => some none
  | some text => (parseVersionToInt text).map some

-- The versions that the repository parses before it runs the statement.
def CreateOtaVersionRequest.bound (req : CreateOtaVersionRequest) : Option NewOtaVersion := do
  let version ← parseVersionToInt req.version
  let minVersion ← parseVersionToInt req.minVersion
  let maxVersion ← parseOptional req.maxVersion
  return ⟨req.productId, req.key, version, maxVersion, minVersion, req.fileKey, req.log,
    req.deviceIds, req.binLength, req.binMd5⟩

def createOtaVersion (req : CreateOtaVersionRequest) : M (Except ApiError Unit) := do
  match validateCreate req with
  | .error e => return .error e
  | .ok _ =>
      match req.bound with
      | none => return .error databaseError
      | some new =>
          match ← query (.createOtaVersion new) with
          | .error _ => return .error databaseError
          | .ok _ => return .ok ()

def UpdateOtaVersionRequest.bound (req : UpdateOtaVersionRequest) : Option OtaVersionChange := do
  let minVersion ← parseOptional req.minVersion
  let maxVersion ← parseOptional req.maxVersion
  return ⟨minVersion, maxVersion, req.fileKey, req.log, req.deviceIds, req.binLength, req.binMd5⟩

-- Nothing to set: no statement is run.
def OtaVersionChange.isEmpty (change : OtaVersionChange) : Bool :=
  change.minVersion.isNone && change.maxVersion.isNone && change.fileKey.isNone &&
    change.log.isNone && change.deviceIds.isNone && change.binLength.isNone && change.binMd5.isNone

def notFoundUnless (message : String) (affected : Nat) : Except ApiError Unit :=
  if 0 < affected then .ok () else .error (.notFound message)

def updateOtaVersion (id : Int) (req : UpdateOtaVersionRequest) : M (Except ApiError Unit) := do
  match validateOptional req.minVersion "min_version" with
  | .error e => return .error e
  | .ok _ =>
      match validateOptional req.maxVersion "max_version" with
      | .error e => return .error e
      | .ok _ =>
          match req.bound with
          | none => return .error databaseError
          | some change =>
              if change.isEmpty then return notFoundUnless "Version not found or no changes made" 0
              else
                match ← query (.updateOtaVersion id change) with
                | .error _ => return .error databaseError
                | .ok affected =>
                    return notFoundUnless "Version not found or no changes made" affected

def deleteOtaVersion (id : Int) : M (Except ApiError Unit) := do
  match ← query (.deleteOtaVersion id) with
  | .error _ => return .error databaseError
  | .ok affected => return notFoundUnless "Version not found" affected

end Admin

inductive Request where
  | report (msg : RMqttPublishMessage)
  | createOtaVersion (req : CreateOtaVersionRequest)
  | updateOtaVersion (id : Int) (req : UpdateOtaVersionRequest)
  | deleteOtaVersion (id : Int)

def serve (config : MqttConfig) : Request → M (Except ApiError Unit)
  | .report msg => otaVersionPost config msg
  | .createOtaVersion req => createOtaVersion req
  | .updateOtaVersion id req => updateOtaVersion id req
  | .deleteOtaVersion id => deleteOtaVersion id

-- A configuration for concrete runs.
def testConfig : MqttConfig := ⟨⟨"rmqtt-things", 1, false⟩, 0⟩

end RmqttThings.Ota
