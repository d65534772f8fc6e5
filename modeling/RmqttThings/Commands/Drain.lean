import RmqttThings.Commands.World
import RmqttThings.Commands.Topics

namespace RmqttThings.Commands

open Effects

structure CommandPublishConfig where
  qos : UInt8
  retain : Bool
  clientid : String
  topic : String
  retries : UInt8

structure CommandConfig where
  publish : CommandPublishConfig

structure MqttConfig where
  propertyCommand : CommandConfig
  serviceCommand : CommandConfig

-- The configuration of the tests.
def testConfig : MqttConfig where
  propertyCommand :=
    ⟨1, false, "rmqtt-things", "$\x7bproductId\x7d/$\x7bclientid\x7d/thing/service/property/set", 0⟩
  serviceCommand :=
    ⟨1, false, "rmqtt-things",
      "$\x7bproductId\x7d/$\x7bclientid\x7d/thing/service/$\x7bservice_type\x7d/set", 0⟩

-- `label` is the prefix of the correlation id: `property` or `action`.
def commandPayload (label : String) (id : Int) (params : Json) : MqttPayload where
  id := label ++ ":" ++ toString id
  params := some params
  ack := .yes

-- The attempts of one message: the first one that the broker accepts is the last.
def publishAttempts (request : PublishRequest) : (attempts : Nat) → M Bool
  | 0 => return false
  | attempts + 1 => do
      let reply ← Prog.perform (Op.postPublish request)
      if reply.isSuccess then return true else publishAttempts request attempts

theorem publishAttempts_succ (request : PublishRequest) (attempts : Nat) :
    publishAttempts request (attempts + 1) = .call (.postPublish request) fun reply =>
      if reply.isSuccess then .ret true else publishAttempts request attempts := rfl

-- The number of retries is always the one of the property commands.
def publishCommand (config : MqttConfig) (request : PublishRequest) : M (Except String Unit) := do
  let retries := config.propertyCommand.publish.retries
  if ← publishAttempts request (retries.toNat + 1) then return .ok ()
  else return .error ("Failed to publish command after " ++ toString retries ++ " retries")

-- The placeholders of the configured topic that are the same for the whole drain.
def deviceTopic (topic productId deviceId : String) : String :=
  replace (replace topic "$\x7bproductId\x7d" productId) "$\x7bclientid\x7d" deviceId

def publishRequest (publish : CommandPublishConfig) (topic : String) (payload : MqttPayload) :
    PublishRequest where
  topic := topic
  clientid := publish.clientid
  payload := payload
  encoding := some "plain"
  qos := some publish.qos
  retain := some publish.retain

def propertyRequest (config : MqttConfig) (productId deviceId : String)
    (row : CommandRow PropertyCommand) :
    PublishRequest :=
  publishRequest config.propertyCommand.publish
    (deviceTopic config.propertyCommand.publish.topic productId deviceId)
    (commandPayload "property" row.id row.body.command)

def actionRequest (config : MqttConfig) (productId deviceId : String)
    (row : CommandRow ActionInvocation) :
    PublishRequest :=
  publishRequest config.serviceCommand.publish
    (replace (deviceTopic config.serviceCommand.publish.topic productId deviceId)
      "$\x7bservice_type\x7d" row.body.serviceType)
    (commandPayload "action" row.id row.body.params)

-- The loop over the claimed rows. A failure to record a failed publication leaves it.
def publishProperties (config : MqttConfig) (productId deviceId : String) :
    List (CommandRow PropertyCommand) → M (Except String Unit)
  | [] => return .ok ()
  | row :: rows => do
      match ← publishCommand config (propertyRequest config productId deviceId row) with
      | .error _ =>
          match ← query (.updateSentCommandsToFailed [row.id]) with
          | .error error => return .error error
          | .ok _ => publishProperties config productId deviceId rows
      | .ok _ => publishProperties config productId deviceId rows

def sendPropertyCommandToDevice (config : MqttConfig) (productId deviceId : String) :
    M (Except String Unit) := do
  match ← query (.updatePendingCommandsToSent productId deviceId) with
  | .error error => return .error error
  | .ok commands => publishProperties config productId deviceId commands

-- One claimed invocation. Whether its failure could be recorded is not looked at.
def publishAction (config : MqttConfig) (productId deviceId : String)
    (row : CommandRow ActionInvocation) : M Unit := do
  match ← publishCommand config (actionRequest config productId deviceId row) with
  | .error _ =>
      let _ ← query (.updateActionInvocationStatus row.id productId deviceId row.body.serviceType
          .failed .sent)
      return ()
  | .ok _ => return ()

-- The loop ends when no Pending row is left. New rows can keep it busy, so it is
-- given `fuel` rounds; `none` means that it has not returned within them.
def sendActionInvocationsToDevice (config : MqttConfig) (productId deviceId : String) :
    (fuel : Nat) → M (Option (Except String Unit))
  | 0 => return none
  | fuel + 1 => do
      match ← query (.claimNextPendingAction productId deviceId) with
      | .error error => return some (.error error)
      | .ok none => return some (.ok ())
      | .ok (some row) =>
          publishAction config productId deviceId row
          sendActionInvocationsToDevice config productId deviceId fuel

-- A broker that answers with an error counts as a device without subscriptions.
def getSubscriptions (clientId : String) : M (Except String (List Subscription)) := do
  match ← Prog.perform (Op.getSubscriptions clientId) with
  | .failed error => return .error error
  | .response status body =>
      if 200 ≤ status ∧ status ≤ 299 then
        match body with
        | some subscriptions => return .ok subscriptions
        | none => return .error "error decoding response body"
      else return .ok []

def subscribedTo (subscriptions : List Subscription) (productId clientId serviceType : String) :
    Bool :=
  subscriptions.any fun subscription =>
    mqttTopicMatches subscription.topic (serviceActionTopic productId clientId serviceType)

def isSubscribedToServiceAction (productId clientId serviceType : String) :
    M (Except String Bool) := do
  match ← getSubscriptions clientId with
  | .error error => return .error error
  | .ok subscriptions => return .ok (subscribedTo subscriptions productId clientId serviceType)

-- The gate asks the broker once, and goes by its reply.
theorem isSubscribedToServiceAction_eq (productId clientId serviceType : String) :
    ∃ answer : HttpReply (Option (List Subscription)) → Except String Bool,
      isSubscribedToServiceAction productId clientId serviceType =
        .call (.getSubscriptions clientId) fun reply => .ret (answer reply) := by
  let subscriptionsOf : HttpReply (Option (List Subscription)) → Except String (List Subscription)
    | .failed error => .error error
    | .response status body =>
        if 200 ≤ status ∧ status ≤ 299 then body.elim (.error "error decoding response body") .ok
        else .ok []
  refine ⟨fun reply => (subscriptionsOf reply).map (subscribedTo · productId clientId serviceType),
    ?_⟩
  simp only [isSubscribedToServiceAction, getSubscriptions, Prog.bind_eq, Prog.perform_bind,
    Prog.call_bind]
  congr 1
  funext reply
  cases reply with
  | failed error => rfl
  | response status body =>
      by_cases hstatus : 200 ≤ status ∧ status ≤ 299
      · cases body <;> simp [subscriptionsOf, hstatus, Except.map]
      · simp [subscriptionsOf, hstatus, Except.map]

def isSubscribedToProperties (productId clientId : String) : M (Except String Bool) :=
  isSubscribedToServiceAction productId clientId "property"

end RmqttThings.Commands
