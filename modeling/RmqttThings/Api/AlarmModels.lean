import RmqttThings.RuleEngine.World

namespace RmqttThings.Api

open RuleEngine

inductive StatusCode where
  | badRequest
  | forbidden
  | notFound
  | conflict
  | internalServerError
  | serviceUnavailable
  deriving DecidableEq

structure ApiError where
  status : StatusCode
  message : String
  deriving DecidableEq

namespace ApiError

def badRequest (message : String) : ApiError := ⟨.badRequest, message⟩

def notFound (message : String) : ApiError := ⟨.notFound, message⟩

def conflict (message : String) : ApiError := ⟨.conflict, message⟩

def internal (message : String) : ApiError := ⟨.internalServerError, message⟩

def forbiddenWith (message : String) : ApiError := ⟨.forbidden, message⟩

def serviceUnavailable (message : String) : ApiError := ⟨.serviceUnavailable, message⟩

end ApiError

def validateCondition (condition : Json) (fieldName : String) : Except ApiError Unit :=
  match condition.asObject with
  | none => .error (.badRequest (fieldName ++ " must be a JSON object"))
  | some fields =>
      match (fields.lookup "operator").bind Json.asStr with
      | none => .error (.badRequest (fieldName ++ " must contain an 'operator' string field"))
      | some operator =>
          if isSupportedOperator operator then .ok ()
          else .error (.badRequest (fieldName ++ " has unsupported operator '" ++ operator ++
            "'. Must be one of: >, >=, <, <=, ==, !=, between, contains, always"))

-- What `validate_condition` accepts: an object whose operator the evaluator knows.
def ValidCondition (condition : Json) : Prop :=
  ∃ operator, (condition.get "operator").bind Json.asStr = some operator ∧
    isSupportedOperator operator = true

theorem validateCondition_ok_iff (condition : Json) (fieldName : String) :
    validateCondition condition fieldName = .ok () ↔ ValidCondition condition := by
  cases condition with
  | object fields =>
      simp only [validateCondition, Json.asObject, ValidCondition, Json.get]
      cases hoperator : (fields.lookup "operator").bind Json.asStr with
      | none => simp
      | some operator =>
          by_cases hsupported : isSupportedOperator operator = true <;> simp [hsupported]
  | _ => simp [validateCondition, Json.asObject, ValidCondition, Json.get]

def validateActions (actions : Json) : Except ApiError Unit :=
  match actions.asArray with
  | none => .error (.badRequest "actions must be a JSON array")
  | some items =>
      if items.isEmpty then .error (.badRequest "actions must contain at least one alarm action")
      else if items.any fun action => (action.get "type").bind Json.asStr == some "alarm" then .ok
        ()
      else .error (.badRequest "actions must contain at least one alarm action")

def isAsciiAlphanumeric (char : Char) : Bool :=
  ('a' ≤ char && char ≤ 'z') || ('A' ≤ char && char ≤ 'Z') || ('0' ≤ char && char ≤ '9')

-- The length is counted in bytes.
def validateIdentifierSafe (id fieldName : String) : Except ApiError Unit :=
  if id.utf8ByteSize > 128 then .error
    (.badRequest (fieldName ++ " must not exceed 128 characters"))
  else if id.toList.any fun char => !isAsciiAlphanumeric char && char != '-' && char != '_' then
    .error (.badRequest (fieldName ++
      " contains invalid character. Only alphanumeric, '-' and '_' are allowed"))
  else .ok ()

-- The identifying field of a property or event trigger.
def validateTriggerField (fields : List (String × Json)) (fieldName triggerType : String) :
    Except ApiError Unit :=
  match ((fields.lookup fieldName).bind Json.asStr).filter fun text => !text.isEmpty with
  | none =>
      .error (.badRequest ("trigger_config." ++ fieldName ++ " is required for " ++ triggerType ++
      " trigger type"))
  | some name => validateIdentifierSafe name fieldName

def invalidTriggerType (triggerType : String) : ApiError :=
  .badRequest ("Invalid trigger_type '" ++ triggerType ++
    "'. Must be one of: property, event, device_online, device_offline")

def validateTriggerConfig (triggerType : String) (triggerConfig : Json) : Except ApiError Unit :=
  match triggerConfig.asObject with
  | none => .error (.badRequest "trigger_config must be a JSON object")
  | some fields =>
      match triggerType with
      | "property" => validateTriggerField fields "property_name" "property"
      | "event" => validateTriggerField fields "event_identifier" "event"
      | "device_online" | "device_offline" => .ok ()
      | _ => .error (invalidTriggerType triggerType)

-- A device that comes online or goes offline reports no value to compare.
def validateDeviceTriggerCondition (triggerType : String) (condition : Json) :
    Except ApiError Unit :=
  if triggerType = "device_online" ∨ triggerType = "device_offline" then
    if (condition.get "operator").bind Json.asStr = some "always" then .ok ()
    else .error (.badRequest ("trigger_type '" ++ triggerType ++
      "' must use condition operator 'always' " ++
      "(device-status triggers carry no value to compare against)"))
  else .ok ()

def validateCreateRuleRequest (req : CreateAlarmRuleRequest) : Except ApiError Unit := do
  validateTriggerConfig req.triggerType req.triggerConfig
  validateCondition req.condition "condition"
  validateDeviceTriggerCondition req.triggerType req.condition
  match req.clearCondition with
  | some clear => validateCondition clear "clear_condition"
  | none => pure ()
  validateActions req.actions

-- A sequence of checks passes when each of them does.
theorem ok_of_bind {ε α β : Type} {first : Except ε α} {next : α → Except ε β} {result : β}
    (h : first >>= next = .ok result) : ∃ value, first = .ok value ∧ next value = .ok result := by
  cases first with
  | error e => cases h
  | ok value => exact ⟨value, rfl, h⟩

-- What the API shows of an alarm.
structure ApiAlarmRecord where
  id : Int
  ruleId : Int
  ruleName : String
  productId : String
  deviceId : String
  level : String
  message : Option String
  triggerValue : Option Json
  acknowledged : Bool
  status : AlarmStatus
  webhookStatus : Option String
  createdAt : OffsetDateTime
  clearedAt : Option String

-- `rfc3339` is the formatter of the `time` crate; it can fail.
def ApiAlarmRecord.ofRecord (rfc3339 : OffsetDateTime → Option String) (record : AlarmRecord) :
    ApiAlarmRecord where
  id := record.id
  ruleId := record.ruleId
  ruleName := record.ruleName
  productId := record.productId
  deviceId := record.deviceId
  level := if record.level = 0 then "info" else if record.level = 1 then "warning" else "critical"
  message := record.message
  triggerValue := record.triggerValue
  acknowledged := decide (record.status ≠ .active)
  status := record.status
  webhookStatus := record.webhookStatus.map fun status =>
    if status = 0 then "success" else if status = 2 then "final_failed" else "failed"
  createdAt := record.createdAt
  clearedAt := record.clearedAt.bind rfc3339

end RmqttThings.Api
