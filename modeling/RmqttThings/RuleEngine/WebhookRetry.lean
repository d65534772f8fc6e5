import RmqttThings.RuleEngine.Actions

namespace RmqttThings.RuleEngine

open Effects

def webhookUrls (actions : List Json) : List String :=
  (parseActions actions).filterMap AlarmAction.webhook?

-- The payload of the first attempt, rebuilt from the alarm row.
def retryPayload (alarm : AlarmRecord) : Json :=
  .object [("device_id", .string alarm.deviceId), ("product_id", .string alarm.productId),
    ("rule_name", .string alarm.ruleName), ("trigger_type", .string alarm.triggerType),
    ("trigger_value", alarm.triggerValue.getD .null)]

-- A retry gives up at the first webhook that fails.
def resendWebhooks (payload : Json) : List String → M (Except String Unit)
  | [] => pure (.ok ())
  | url :: urls => do
      let sent : Except String Unit ← Prog.perform (Op.sendWebhook url payload)
      match sent with
      | .ok _ => resendWebhooks payload urls
      | .error e => return .error e

def retrySingleWebhook (alarm : AlarmRecord) : M (Except String Unit) := do
  match ← query (.getRuleActions alarm.ruleId) with
  | .error e => return .error e
  | .ok none => return .ok ()
  | .ok (some actions) =>
      let urls := webhookUrls (actions.asArray.getD [])
      if urls.isEmpty then return .ok ()
      else resendWebhooks (retryPayload alarm) urls

-- What the loop writes for the result of a retry. The failures of its own
-- statements are only logged.
def recordRetry (repo : AlarmRepo) (alarmId : Int) : Except String Unit → M Unit
  | .ok _ => do
      let _ ← query (.markWebhookSuccess alarmId)
      return ()
  | .error _ => do
      match ← query (.decrementRetryAndScheduleNext alarmId
        repo.webhookRetryIntervalSeconds.toInt64.toInt) with
      | .ok (some remaining) =>
          if remaining.toInt ≤ 0 then
            let _ ← query (.markWebhookFinalFailure alarmId)
            return ()
          else return ()
      | .ok none => return ()
      | .error _ => return ()

def retryAlarm (repo : AlarmRepo) (alarm : AlarmRecord) : M Unit := do
  let result ← retrySingleWebhook alarm
  recordRetry repo alarm.id result

-- One iteration of `webhook_retry_task`. The selected rows are a snapshot.
def webhookRetryTick (repo : AlarmRepo) : M Unit := do
  match ← query .queryPendingRetries with
  | .error _ => return ()
  | .ok pending => Prog.forEach pending (retryAlarm repo)

end RmqttThings.RuleEngine
