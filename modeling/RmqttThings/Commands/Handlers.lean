import RmqttThings.Commands.Drain

namespace RmqttThings.Commands

open Effects Shadow
open Api (ApiError)

def databaseError : ApiError := .internal "Database operation failed"

-- The body of a reply after base64 and JSON decoding.
inductive ReplyPayload where
  | badEncoding
  | badFormat
  | response (id : String) (code : Int32)

structure RMqttPublishMessage where
  clientId : String
  topic : String
  payload : ReplyPayload

structure RMqttSubscribeMessage where
  clientId : String
  topic : Option String
  username : Option String

structure DeviceConnectRequest where
  clientId : Option String
  productId : String
  deviceId : String
  username : Option String

structure CreatePropertyCommandRequest where
  productId : String
  deviceId : String
  command : Json

structure CreateActionCommandRequest where
  productId : String
  deviceId : String
  serviceType : String
  params : Json

structure SetDesiredRequest where
  productId : String
  deviceId : String
  desired : JsonMap

inductive Reply where
  | ok
  | created
  | noContent
  | invocation (id : Int) (status : CommandStatus)
  | desired (desired delta : Json) (pushed : Bool)
  | error (error : ApiError)

-- What a reply is about: the product, the service type, the correlation id's label,
-- the row, and the status that its code stands for.
structure SetReply where
  productId : String
  serviceType : String
  label : String
  dbId : Int
  status : CommandStatus

-- The checks of `service_set_reply`, in the order of the source.
def parseSetReply (msg : RMqttPublishMessage) : Except ApiError SetReply := do
  validateIdentifier msg.clientId "device_id"
  let productId ← extractAndValidateProductId msg.topic
  let serviceType ← match extractServiceTypeFromTopic msg.topic with
    | some serviceType => .ok serviceType
    | none => .error (.badRequest "Invalid service topic")
  match msg.payload with
  | .badEncoding => .error (.badRequest "Invalid payload encoding")
  | .badFormat => .error (.badRequest "Invalid payload format")
  | .response id code =>
      let status := if 200 ≤ code ∧ code ≤ 299 then CommandStatus.success else .failed
      match splitOnce ':' id with
      | none => .error (.badRequest "Invalid id format")
      | some (label, dbId) =>
          match parseI64 dbId with
          | none => .error (.badRequest "Invalid id format")
          | some dbId => .ok ⟨productId, serviceType, label, dbId, status⟩

def serviceSetReply (msg : RMqttPublishMessage) : M Reply := do
  match parseSetReply msg with
  | .error error => return .error error
  | .ok reply =>
      if reply.label == "property" then
        match ← query (.updatePropertyCommandStatus [reply.dbId] reply.productId msg.clientId
          reply.status .sent) with
        | .error _ => return .error databaseError
        | .ok _ => return .noContent
      else if reply.label == "action" then
        match ← query (.updateActionInvocationStatus reply.dbId reply.productId msg.clientId
          reply.serviceType
            reply.status .sent) with
        | .error _ => return .error databaseError
        | .ok _ => return .noContent
      else return .noContent

-- The topic, when there is one, must name the client in its second segment.
def validateSubscribe (msg : RMqttSubscribeMessage) : Except ApiError Unit := do
  validateIdentifier msg.clientId "device_id"
  validateIdentifier (msg.username.getD "") "product_id"
  match msg.topic with
  | none => .ok ()
  | some topic =>
      if (trimmedSegments topic)[1]? == some msg.clientId then .ok ()
      else .error (.badRequest "Topic does not match clientId")

def publishError : ApiError := .internal "Failed to publish command"

def serviceSetSubscribe (config : MqttConfig) (fuel : Nat) (msg : RMqttSubscribeMessage) :
    M (Option Reply) := do
  match validateSubscribe msg with
  | .error error => return some (.error error)
  | .ok _ =>
      let productId := msg.username.getD ""
      let deviceId := msg.clientId
      match ← isSubscribedToProperties productId deviceId with
      | .ok true =>
          match ← sendPropertyCommandToDevice config productId deviceId with
          | .error _ => return some (.error publishError)
          | .ok _ =>
              match ← sendActionInvocationsToDevice config productId deviceId fuel with
              | none => return none
              | some (.error _) => return some (.error publishError)
              | some (.ok _) => return some .noContent
      | _ => return some .noContent

def resolveDeviceIdentity (req : DeviceConnectRequest) : Except ApiError (String × String) := do
  let productId := if req.productId.isEmpty then req.username.getD "" else req.productId
  let deviceId := if req.deviceId.isEmpty then req.clientId.getD req.deviceId else req.deviceId
  if productId.isEmpty ∨ deviceId.isEmpty then .error (.badRequest "Invalid device identity")
  else
    validateIdentifier productId "product_id"
    validateIdentifier deviceId "device_id"
    return (productId, deviceId)

-- The rule evaluation that follows the answer touches none of these tables.
def deviceConnect (config : MqttConfig) (fuel : Nat) (req : DeviceConnectRequest) :
    M (Option Reply) := do
  match resolveDeviceIdentity req with
  | .error error => return some (.error error)
  | .ok (productId, deviceId) =>
      match ← query (.upsertDeviceStatusConnect productId deviceId) with
      | .error _ => return some (.error databaseError)
      | .ok _ =>
          match ← isSubscribedToProperties productId deviceId with
          | .ok true =>
              let _ ← sendPropertyCommandToDevice config productId deviceId
              match ← sendActionInvocationsToDevice config productId deviceId fuel with
              | none => return none
              | some _ => return some .noContent
          | _ => return some .noContent

-- The immediate delivery after a command has been stored; its failures are logged only.
def deliverProperties (config : MqttConfig) (productId deviceId : String) : M Unit := do
  match ← isSubscribedToProperties productId deviceId with
  | .ok true =>
      let _ ← sendPropertyCommandToDevice config productId deviceId
      return ()
  | _ => return ()

def validateDevice (productId deviceId : String) : Except ApiError Unit := do
  validateIdentifier productId "product_id"
  validateIdentifier deviceId "device_id"

def createPropertyCommand (config : MqttConfig) (req : CreatePropertyCommandRequest) : M Reply := do
  match validateDevice req.productId req.deviceId with
  | .error error => return .error error
  | .ok _ =>
      if req.command.isNull then return .error (.badRequest "command cannot be null")
      else
        match ← query (.insertPropertyCommand req.productId req.deviceId req.command .oneShot) with
        | .error _ => return .error databaseError
        | .ok _ =>
            deliverProperties config req.productId req.deviceId
            return .created

def setPropertyDesired (config : MqttConfig) (req : SetDesiredRequest) : M Reply := do
  match validateDevice req.productId req.deviceId with
  | .error error => return .error error
  | .ok _ =>
      if req.desired.isEmpty then
        return .error (.badRequest "desired must be a non-empty JSON object")
      else
        match ← query (.upsertPropertyDesired req.productId req.deviceId req.desired) with
        | .error _ => return .error databaseError
        | .ok merged =>
            match ← query (.getPropertyLatestOne req.productId req.deviceId) with
            | .error _ => return .error databaseError
            | .ok reportedRow =>
                let delta := computeDelta (objectOrDefault merged.desired) (reportedMap reportedRow)
                if delta.isEmpty then return .desired merged.desired delta.toJson false
                else
                  match ← query (.insertPropertyCommand req.productId req.deviceId delta.toJson
                    .desiredDelta) with
                  | .error _ => return .error databaseError
                  | .ok _ =>
                      deliverProperties config req.productId req.deviceId
                      return .desired merged.desired delta.toJson true

def createServiceCommand (config : MqttConfig) (fuel : Nat) (req : CreateActionCommandRequest) :
    M (Option Reply) := do
  match validateDevice req.productId req.deviceId with
  | .error error => return some (.error error)
  | .ok _ =>
      match validateServiceType req.serviceType with
      | .error error => return some (.error error)
      | .ok _ =>
          let params := if req.params.isNull then JsonMap.empty.toJson else req.params
          match ← query (.insertActionInvocation req.productId req.deviceId req.serviceType params)
            with
          | .error _ => return some (.error databaseError)
          | .ok id =>
              match ← isSubscribedToServiceAction req.productId req.deviceId req.serviceType with
              | .ok true =>
                  match ← sendActionInvocationsToDevice config req.productId req.deviceId fuel with
                  | none => return none
                  | some (.ok _) => return some (.invocation id .sent)
                  | some (.error _) => return some (.invocation id .pending)
              | _ => return some (.invocation id .pending)

-- The two handlers that delete by id.
def deleteRows (stmt : Sql) : M Reply := do
  match ← query stmt with
  | .error _ => return .error databaseError
  | .ok _ => return .ok

def deletePropertyCommands (ids : List Int) : M Reply := deleteRows (.deletePropertyCommands ids)

def deleteServiceCommands (ids : List Int) : M Reply := deleteRows (.deleteActionInvocations ids)

inductive Request where
  | serviceSetReply (msg : RMqttPublishMessage)
  | serviceSetSubscribe (msg : RMqttSubscribeMessage)
  | deviceConnect (req : DeviceConnectRequest)
  | createPropertyCommand (req : CreatePropertyCommandRequest)
  | setPropertyDesired (req : SetDesiredRequest)
  | createServiceCommand (req : CreateActionCommandRequest)
  | deletePropertyCommands (ids : List Int)
  | deleteServiceCommands (ids : List Int)

-- `none` is a request whose drain is still running after `fuel` rounds.
def serve (config : MqttConfig) (fuel : Nat) : Request → M (Option Reply)
  | .serviceSetReply msg => do return some (← serviceSetReply msg)
  | .serviceSetSubscribe msg => serviceSetSubscribe config fuel msg
  | .deviceConnect req => deviceConnect config fuel req
  | .createPropertyCommand req => do return some (← createPropertyCommand config req)
  | .setPropertyDesired req => do return some (← setPropertyDesired config req)
  | .createServiceCommand req => createServiceCommand config fuel req
  | .deletePropertyCommands ids => do return some (← deletePropertyCommands ids)
  | .deleteServiceCommands ids => do return some (← deleteServiceCommands ids)

end RmqttThings.Commands
