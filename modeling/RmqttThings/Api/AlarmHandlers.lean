import RmqttThings.Api.AlarmModels
import RmqttThings.Effects.Pool
import RmqttThings.RuleEngine.Engine

namespace RmqttThings.Api

open Effects RuleEngine

-- The configuration chooses the state store.
inductive CacheType where
  | memory
  | redis (iso : Iso8601)

def CacheType.stateStore : CacheType → RuleStateStore
  | .memory => InMemoryRuleStateStore.store
  | .redis iso => RedisRuleStateStore.store iso

-- The part of `ApiState` that the alarm handlers and the spawned evaluations use.
structure ApiState where
  alarm : AlarmRepo
  cacheType : CacheType
  rfc3339 : OffsetDateTime → Option String

-- The one shared cache; its map is the object 0.
@[simps] def ApiState.ruleCache (state : ApiState) : RuleCache := ⟨0, state.cacheType.stateStore⟩

def databaseError : ApiError := .internal "Database operation failed"

def durationNotSupported : ApiError :=
  .badRequest "Duration and clear conditions are only supported for property trigger type"

section Handlers

variable (state : ApiState)

def createAlarmRule (req : CreateAlarmRuleRequest) : M (Except ApiError AlarmRule) :=
  if (TriggerType.fromStr req.triggerType).isNone then
    return .error (invalidTriggerType req.triggerType)
  else match validateCreateRuleRequest req with
  | .error e => return .error e
  | .ok _ => do
      match ← query (.getProductByModelNo req.productId) with
      | .error _ => return .error databaseError
      | .ok none => return .error (.badRequest ("Product '" ++ req.productId ++ "' not found"))
      | .ok (some _) =>
          if req.durationMinutes.toInt < 0 then
            return .error (.badRequest "duration_minutes must be >= 0")
          else if req.triggerType ≠ "property" ∧
            (0 < req.durationMinutes.toInt ∨ req.clearCondition.isSome) then
            return .error durationNotSupported
          else match ← query (.createRule req) with
          | .error _ => return .error databaseError
          | .ok ruleId =>
              match ← query (.getRuleById ruleId) with
              | .error _ => return .error databaseError
              | .ok none => return .error (.internal "Failed to fetch created rule")
              | .ok (some rule) => do
                  state.ruleCache.invalidateProduct req.productId
                  return .ok rule

-- What `update_alarm_rule` and `update_alarm_rule_status` do once the statement is
-- known: write, fetch the rule again, and invalidate the product.
def writeRule (id : Int) (productId : String) (write : M (Except String Nat)) :
    M (Except ApiError AlarmRule) := do
  match ← write with
  | .error _ => return .error databaseError
  | .ok 0 => return .error (.notFound "Alarm rule not found")
  | .ok (_ + 1) =>
      match ← query (.getRuleById id) with
      | .error _ => return .error databaseError
      | .ok none => return .error (.internal "Failed to fetch updated rule")
      | .ok (some updated) => do
          state.ruleCache.invalidateProduct productId
          return .ok updated

-- The checks of an update against the rule it is about; the trigger type cannot change.
def validateUpdate (existing : AlarmRule) (req : UpdateAlarmRuleRequest) :
    Except ApiError Unit := do
  if existing.triggerType ≠ "property" ∧
    ((req.durationMinutes.any fun value => decide (0 < value.toInt)) ∨
      req.clearCondition.any Option.isSome) then
    throw durationNotSupported
  match req.condition with
  | some condition =>
      validateCondition condition "condition"
      validateDeviceTriggerCondition existing.triggerType condition
  | none => pure ()
  match req.actions with
  | some actions => validateActions actions
  | none => pure ()
  match req.clearCondition with
  | some (some clear) => validateCondition clear "clear_condition"
  | _ => pure ()
  match req.triggerConfig with
  | some triggerConfig => validateTriggerConfig existing.triggerType triggerConfig
  | none => pure ()

def updateAlarmRule (id : Int) (req : UpdateAlarmRuleRequest) : M (Except ApiError AlarmRule) :=
  if req.durationMinutes.any fun value => decide (value.toInt < 0) then
    return .error (.badRequest "duration_minutes must be >= 0")
  else do
    match ← query (.getRuleById id) with
    | .error _ => return .error databaseError
    | .ok none => return .error (.notFound "Alarm rule not found")
    | .ok (some existing) =>
        match validateUpdate existing req with
        | .error e => return .error e
        | .ok _ => writeRule state id existing.productId (query (.updateRule id req))

def updateAlarmRuleStatus (id : Int) (enabled : Bool) : M (Except ApiError AlarmRule) := do
  match ← query (.getRuleById id) with
  | .error _ => return .error databaseError
  | .ok none => return .error (.notFound "Alarm rule not found")
  | .ok (some existing) =>
      writeRule state id existing.productId (query (.updateRuleStatus id enabled))

def deleteAlarmRule (id : Int) : M (Except ApiError Unit) := do
  match ← query (.getRuleById id) with
  | .error _ => return .error databaseError
  | .ok none => return .error (.notFound "Alarm rule not found")
  | .ok (some existing) =>
      match ← query (.deleteRule id) with
      | .error _ => return .error databaseError
      | .ok 0 => return .error (.notFound "Alarm rule not found")
      | .ok (_ + 1) => do
          state.ruleCache.invalidateProduct existing.productId
          return .ok ()

-- The two handlers that move an alarm on: read it, refuse by its status, update it
-- under a guard, and read it again.
def moveAlarm (id : Int) (refuses : AlarmStatus → Bool) (refusal lost : String)
    (update : M (Except String Nat)) : M (Except ApiError ApiAlarmRecord) := do
  match ← query (.getAlarmById id) with
  | .error _ => return .error databaseError
  | .ok none => return .error (.notFound "Alarm not found")
  | .ok (some existing) =>
      if refuses existing.status then return .error (.conflict refusal)
      else match ← update with
      | .error _ => return .error databaseError
      | .ok 0 => return .error (.conflict refusal)
      | .ok (_ + 1) =>
          match ← query (.getAlarmById id) with
          | .error _ => return .error databaseError
          | .ok none => return .error (.internal lost)
          | .ok (some updated) => return .ok (.ofRecord state.rfc3339 updated)

def ackAlarm (id : Int) : M (Except ApiError ApiAlarmRecord) :=
  moveAlarm state id (fun status => decide (status ≠ .active))
    "Only alarms in active status can be acknowledged" "Failed to fetch updated alarm"
    (query (.ackAlarm id))

def clearAlarm (id : Int) : M (Except ApiError ApiAlarmRecord) :=
  moveAlarm state id (fun status => decide (status = .cleared)) "Alarm already cleared"
    "Failed to fetch cleared alarm" (query (.clearAlarm id))

end Handlers

-- A request that the process serves on a task of its own; a report of a device is
-- served by the evaluation that its webhook handler spawns.
inductive Request where
  | report (ctx : TriggerContext)
  | createAlarmRule (req : CreateAlarmRuleRequest)
  | updateAlarmRule (id : Int) (req : UpdateAlarmRuleRequest)
  | updateAlarmRuleStatus (id : Int) (enabled : Bool)
  | deleteAlarmRule (id : Int)
  | ackAlarm (id : Int)
  | clearAlarm (id : Int)

inductive Reply where
  | evaluated
  | rule (data : AlarmRule)
  | noContent
  | alarm (data : ApiAlarmRecord)
  | error (error : ApiError)

def answer {α : Type} (ok : α → Reply) : Except ApiError α → Reply
  | .ok value => ok value
  | .error e => .error e

def serve (state : ApiState) : Request → M Reply
  | .report ctx => do
      spawnedEvaluation state.ruleCache state.alarm ctx
      return .evaluated
  | .createAlarmRule req => return answer .rule (← createAlarmRule state req)
  | .updateAlarmRule id req => return answer .rule (← updateAlarmRule state id req)
  | .updateAlarmRuleStatus id enabled =>
      return answer .rule (← updateAlarmRuleStatus state id enabled)
  | .deleteAlarmRule id => return answer (fun _ => .noContent) (← deleteAlarmRule state id)
  | .ackAlarm id => return answer .alarm (← ackAlarm state id)
  | .clearAlarm id => return answer .alarm (← clearAlarm state id)

-- The process serves its requests concurrently: their operations interleave in any order.
abbrev run (state : ApiState) (moves : List (Move Request)) (start : World) :
    Pool World Request Op.Ans Reply :=
  Pool.play sem (serve state) moves start

abbrev Log := List (Nat × Event Op.Ans)

abbrev stateAt (start : World) (log : Log) : World := Pool.replay sem start log

-- A process with the in-memory store, for concrete runs.
def memoryState : ApiState := ⟨⟨3, 60⟩, .memory, fun _ => none⟩

end RmqttThings.Api
