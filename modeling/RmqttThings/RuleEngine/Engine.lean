import RmqttThings.RuleEngine.Actions

namespace RmqttThings.RuleEngine

open Effects

-- The property may be nested as `{"name": {"value": …}}` or flat as `{"name": …}`.
def extractPropertyValue (triggerValue : Json) (propertyName : String) : Option Json :=
  (triggerValue.get propertyName).map fun prop => (prop.get "value").getD prop

def AlarmRule.propertyName (rule : AlarmRule) : Option String :=
  (rule.triggerConfig.get "property_name").bind Json.asStr

def AlarmRule.eventIdentifier (rule : AlarmRule) : Option String :=
  (rule.triggerConfig.get "event_identifier").bind Json.asStr

-- The value a rule is evaluated against; `none` stands for the `continue`s before
-- the condition: another trigger type, no configured name, or nothing under it.
def actualValue (ctx : TriggerContext) (rule : AlarmRule) : Option Json :=
  match TriggerType.fromStr rule.triggerType with
  | none => none
  | some kind =>
      if kind ≠ ctx.triggerType then none
      else match kind with
        | .property => rule.propertyName.bind (extractPropertyValue ctx.triggerValue)
        | .event => rule.eventIdentifier.bind ctx.triggerValue.get
        | .deviceOnline | .deviceOffline => some .null

-- Only property rules with a positive duration are tracked.
def tracksDuration (ctx : TriggerContext) (rule : AlarmRule) : Bool :=
  decide (ctx.triggerType = .property) && decide (0 < rule.durationMinutes.toInt)

section Engine

variable (repo : AlarmRepo) (now : M OffsetDateTime) (ctx : TriggerContext) (cache : RuleCache)

-- The duration check: has the condition held for long enough?
def sustained (rule : AlarmRule) : M Bool :=
  if tracksDuration ctx rule then do
    let instant ← now
    let result ← cache.stateStore.checkDuration rule.id ctx.deviceId rule.durationMinutes instant
    return decide (result = .met)
  else return true

def resetTracking (rule : AlarmRule) : M Unit := do
  let _ ← cache.stateStore.resetDuration rule.id ctx.deviceId
  return ()

-- The dedup check, then the mark, then the actions. The results of the mark and
-- of the actions are ignored.
def fire (rule : AlarmRule) : M Unit := do
  let instant ← now
  if ← cache.stateStore.checkDedup rule.id ctx.deviceId rule.throttleMinutes.toInt instant then
    return ()
  else
    let _ ← cache.stateStore.markTriggered rule.id ctx.deviceId rule.throttleMinutes.toInt
    let _ ← executeActions repo (rule.actions.asArray.getD []) ctx rule.id rule.name
    return ()

-- One round of the rule loop.
def evaluateRule (rule : AlarmRule) : M Unit :=
  match actualValue ctx rule with
  | none => return ()
  | some actual =>
      if RuleEvaluator.evaluate rule.condition actual then do
        if ← sustained now ctx cache rule then fire repo now ctx cache rule else return ()
      else if tracksDuration ctx rule then resetTracking ctx cache rule
      else return ()

def clearAlarms (alarms : List AlarmRecord) : M Unit :=
  Prog.forEach alarms fun alarm => do
    let _ ← query (.clearAlarm alarm.id)
    return ()

-- One round of the clear loop.
def clearRule (rule : AlarmRule) : M Unit :=
  if rule.triggerType ≠ "property" then return ()
  else match rule.clearCondition with
  | none => return ()
  | some clearCondition => do
      match ← query (.queryActiveAlarmsForClear rule.id ctx.deviceId) with
      | .error _ => return ()
      | .ok activeAlarms =>
          let activeAlarms : List AlarmRecord := activeAlarms
          if activeAlarms.isEmpty then return ()
          else match rule.propertyName.bind (extractPropertyValue ctx.triggerValue) with
            | none => return ()
            | some actual =>
                if RuleEvaluator.evaluate clearCondition actual then do
                  clearAlarms activeAlarms
                  resetTracking ctx cache rule
                else return ()

-- The cached rules of the product, read from the database on a miss; `none` when
-- that fails.
def loadRules : M (Option (List AlarmRule)) := do
  match ← cache.getRules ctx.productId with
  | some rules => return some rules
  | none =>
      match ← query (.queryEnabledRulesByProduct ctx.productId) with
      | .error _ => return none
      | .ok rules => do
          cache.setRules ctx.productId rules
          return some rules

def evaluateRules (rules : List AlarmRule) : M Unit := do
  Prog.forEach rules (evaluateRule repo now ctx cache)
  if ctx.triggerType = .property then Prog.forEach rules (clearRule ctx cache) else return ()

end Engine

def evaluateAndTrigger (ctx : TriggerContext) (repo : AlarmRepo) (cache : RuleCache)
    (nowFn : Option (M OffsetDateTime)) : M Unit := do
  match ← loadRules ctx cache with
  | none => return ()
  | some rules => evaluateRules repo (nowFn.getD nowUtc) ctx cache rules

-- A rule and the report of a device coming online, for concrete runs.
def onlineRule (id : Int) (throttleMinutes : Int32) : AlarmRule where
  id := id
  productId := "p"
  name := "online"
  description := none
  triggerType := "device_online"
  triggerConfig := .object []
  condition := .object [("operator", .string "always")]
  actions := .array [.object [("type", .string "alarm"), ("level", .string "info")]]
  enabled := true
  throttleMinutes := throttleMinutes
  durationMinutes := 0
  clearCondition := none
  createdAt := 0
  updatedAt := 0

def onlineTables : Tables := { Tables.empty with rules := [onlineRule 1 5] }

def online (deviceId : String) : TriggerContext where
  productId := "p"
  deviceId := deviceId
  triggerType := .deviceOnline
  triggerValue := .null

-- A threshold on a property, and a report of it.
def hotRule (id : Int) (throttleMinutes durationMinutes : Int32) (clearCondition : Option Json) :
    AlarmRule :=
  { onlineRule id throttleMinutes with
    name := "hot"
    triggerType := "property"
    triggerConfig := .object [("property_name", .string "temp")]
    condition := .object [("operator", .string ">"), ("value", .number (.posInt 50))]
    durationMinutes := durationMinutes
    clearCondition := clearCondition }

def temperature (deviceId : String) (value : UInt64) : TriggerContext where
  productId := "p"
  deviceId := deviceId
  triggerType := .property
  triggerValue := .object [("temp", .number (.posInt value))]

-- What `property_post`, `event_post`, `device_connect` and `device_disconnect`
-- spawn: the evaluation works on a clone of the shared cache.
def spawnedEvaluation (shared : RuleCache) (repo : AlarmRepo) (ctx : TriggerContext) : M Unit := do
  let cache ← shared.clone
  evaluateAndTrigger ctx repo cache none

end RmqttThings.RuleEngine
