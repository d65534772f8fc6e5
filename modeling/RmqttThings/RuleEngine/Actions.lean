import RmqttThings.RuleEngine.Cache

namespace RmqttThings.RuleEngine

open Effects

structure TriggerContext where
  productId : String
  deviceId : String
  triggerType : TriggerType
  triggerValue : Json

inductive AlarmAction where
  | alarm (level : Int16) (message : String)
  | webhook (url : String)

def parseLevel : Option Json → Int16
  | some (.string "info") => 0
  | some (.string "warning") => 1
  | some (.string "critical") => 2
  | some (.number value) => Int16.ofInt ((value.asI64.map Int64.toInt).getD 0)
  | _ => 0

def parseAction (action : Json) : Option AlarmAction :=
  match (action.get "type").bind Json.asStr with
  | some "alarm" => some (.alarm (parseLevel (action.get "level"))
      (((action.get "message").bind Json.asStr).getD ""))
  | some "webhook" => ((action.get "url").bind Json.asStr).map .webhook
  | _ => none

-- Entries that are no objects, have no known type or lack their url are skipped.
def parseActions (actions : List Json) : List AlarmAction := actions.filterMap parseAction

def AlarmAction.alarm? : AlarmAction → Option (Int16 × String)
  | .alarm level message => some (level, message)
  | .webhook _ => none

def AlarmAction.webhook? : AlarmAction → Option String
  | .alarm _ _ => none
  | .webhook url => some url

-- The settings that `AlarmRepo` carries beside its connection pool.
structure AlarmRepo where
  webhookMaxRetries : Int16
  webhookRetryIntervalSeconds : UInt64

def webhookPayload (ctx : TriggerContext) (ruleName : String) : Json :=
  .object [("device_id", .string ctx.deviceId), ("product_id", .string ctx.productId),
    ("rule_name", .string ruleName), ("trigger_type", .string ctx.triggerType.asStr),
    ("trigger_value", ctx.triggerValue)]

-- Every webhook is attempted; the answer says whether any of them failed.
def sendWebhooks (payload : Json) : List String → Bool → M Bool
  | [], anyFailed => pure anyFailed
  | url :: urls, anyFailed => do
      let sent : Except String Unit ← Prog.perform (Op.sendWebhook url payload)
      match sent with
      | .ok _ => sendWebhooks payload urls anyFailed
      | .error _ => sendWebhooks payload urls true

def recordWebhooks (repo : AlarmRepo) (alarmId : Int) (failed : Bool) : M Unit :=
  if failed then do
    let now ← nowUtc
    let _ ← query (.updateAlarmWebhookStatusWithRetry alarmId 1 repo.webhookMaxRetries
      (some (now + repo.webhookRetryIntervalSeconds.toInt64.toInt * nanosPerSecond)))
    return ()
  else do
    let _ ← query (.updateAlarmWebhookStatus alarmId 0)
    return ()

def newAlarm (parsed : List AlarmAction) (ctx : TriggerContext) (ruleId : Int) (ruleName : String) :
    NewAlarm :=
  let (level, message) := (parsed.findSome? AlarmAction.alarm?).getD (0, "")
  { ruleId := ruleId
    ruleName := ruleName
    productId := ctx.productId
    deviceId := ctx.deviceId
    level := level
    message := if message.isEmpty then none else some message
    triggerValue := some ctx.triggerValue
    triggerType := ctx.triggerType.asStr }

def executeActions (repo : AlarmRepo) (actions : List Json) (ctx : TriggerContext) (ruleId : Int)
    (ruleName : String) : M (Except String Unit) := do
  let parsed := parseActions actions
  match ← query (.insertAlarm (newAlarm parsed ctx ruleId ruleName)) with
  | .error e => return .error e
  | .ok alarmId => do
      let urls := parsed.filterMap AlarmAction.webhook?
      if urls.isEmpty then return .ok ()
      else
        let failed ← sendWebhooks (webhookPayload ctx ruleName) urls false
        recordWebhooks repo alarmId failed
        return .ok ()

end RmqttThings.RuleEngine
