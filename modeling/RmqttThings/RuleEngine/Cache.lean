import RmqttThings.RuleEngine.World

namespace RmqttThings.RuleEngine

open Effects

inductive DurationCheckResult where
  | met
  | notYetMet
  | justStarted
  | notStarted
  deriving DecidableEq

-- The trait `RuleStateStore`. `checkDedup` answers `true` when the trigger has to
-- be skipped.
structure RuleStateStore where
  checkDedup : Int → String → Int → OffsetDateTime → M Bool
  markTriggered : Int → String → Int → M (Except String Unit)
  checkDuration : Int → String → Int32 → OffsetDateTime → M DurationCheckResult
  resetDuration : Int → String → M (Except String Unit)
  invalidateByRuleIds : List Int → M (Except String Unit)

namespace InMemoryRuleStateStore

-- Both maps use this key.
def stateKey (ruleId : Int) (deviceId : String) : String := toString ruleId ++ ":" ++ deviceId

def checkDedup (ruleId : Int) (deviceId : String) (throttleMinutes : Int) (now : OffsetDateTime) :
    M Bool :=
  if throttleMinutes ≤ 0 then pure false
  else do
    let stored : Option OffsetDateTime ← Prog.perform (Op.dedupGet (stateKey ruleId deviceId))
    match stored with
    | some lastTriggered => return decide (wholeMinutes (now - lastTriggered) < throttleMinutes)
    | none => return false

def markTriggered (ruleId : Int) (deviceId : String) (_throttleMinutes : Int) :
    M (Except String Unit) := do
  let now ← nowUtc
  let _ ← Prog.perform (Op.dedupInsert (stateKey ruleId deviceId) now)
  return .ok ()

def checkDuration (ruleId : Int) (deviceId : String) (durationMinutes : Int32)
    (now : OffsetDateTime) : M DurationCheckResult :=
  if durationMinutes.toInt ≤ 0 then pure .met
  else do
    let stored : Option OffsetDateTime ← Prog.perform (Op.durationGet (stateKey ruleId deviceId))
    match stored with
    | some started =>
        if wholeMinutes (now - started) ≥ durationMinutes.toInt then return .met
        else return .notYetMet
    | none => do
        let _ ← Prog.perform (Op.durationInsert (stateKey ruleId deviceId) now)
        return .justStarted

def resetDuration (ruleId : Int) (deviceId : String) : M (Except String Unit) := do
  let _ ← Prog.perform (Op.durationRemove (stateKey ruleId deviceId))
  return .ok ()

-- `k.split(':').next().is_none_or(|id| !rule_id_set.contains(id))`
def keeps (ruleIds : List Int) (key : String) : Bool :=
  !(ruleIds.map toString).contains (String.ofList (key.toList.takeWhile (· != ':')))

def invalidateByRuleIds (ruleIds : List Int) : M (Except String Unit) :=
  if ruleIds.isEmpty then pure (.ok ())
  else do
    let _ ← Prog.perform (Op.durationRetain (keeps ruleIds))
    let _ ← Prog.perform (Op.dedupRetain (keeps ruleIds))
    return .ok ()

@[simps -fullyApplied] def store : RuleStateStore where
  checkDedup := checkDedup
  markTriggered := markTriggered
  checkDuration := checkDuration
  resetDuration := resetDuration
  invalidateByRuleIds := invalidateByRuleIds

end InMemoryRuleStateStore

namespace RedisRuleStateStore

variable (iso : Iso8601)

def dedupKey (ruleId : Int) (deviceId : String) : String :=
  "alarm:dedup:" ++ toString ruleId ++ ":" ++ deviceId

def durationKey (ruleId : Int) (deviceId : String) : String :=
  "alarm:duration:" ++ toString ruleId ++ ":" ++ deviceId

def connect : M (Except String Unit) := Prog.perform Op.redisConnect

def get (key : String) : M (Except String (Option String)) := Prog.perform (Op.redisGet key)

def setEx (key value : String) (ttlSecs : Int) : M (Except String Unit) :=
  Prog.perform (Op.redisSet key value ttlSecs)

def del (keys : List String) : M (Except String Unit) := Prog.perform (Op.redisDel keys)

def scan (pattern : String) : M (Except String (List (List String))) :=
  Prog.perform (Op.redisScan pattern)

def dedupTtl (throttleMinutes : Int) : Int := max (wrapI64 (wrapI64 (throttleMinutes * 2) * 60)) 60

def durationTtl (durationMinutes : Int32) : Int :=
  max (wrapI64 (wrapI64 (durationMinutes.toInt * 3) * 60)) 60

-- Every failed lookup answers `true`, although each log message of these branches
-- says that the trigger is allowed.
def checkDedup (ruleId : Int) (deviceId : String) (throttleMinutes : Int) (now : OffsetDateTime) :
    M Bool :=
  if throttleMinutes ≤ 0 then pure false
  else do
    match ← connect with
    | .error _ => return true
    | .ok _ =>
        match ← get (dedupKey ruleId deviceId) with
        | .error _ => return true
        | .ok none => return false
        | .ok (some text) =>
            match iso.parse text with
            | .error _ => return true
            | .ok lastTriggered =>
                return decide (wholeMinutes (now - lastTriggered) < throttleMinutes)

def markTriggered (ruleId : Int) (deviceId : String) (throttleMinutes : Int) :
    M (Except String Unit) := do
  match ← connect with
  | .error e => return .error ("Redis connection failed in mark_triggered: " ++ e)
  | .ok _ => do
      let now ← nowUtc
      match iso.format now with
      | .error e => return .error ("Failed to format timestamp: " ++ e)
      | .ok text =>
          match ← setEx (dedupKey ruleId deviceId) text (dedupTtl throttleMinutes) with
          | .error e => return .error ("Redis SET failed in mark_triggered: " ++ e)
          | .ok _ => return .ok ()

def checkDuration (ruleId : Int) (deviceId : String) (durationMinutes : Int32)
    (now : OffsetDateTime) : M DurationCheckResult :=
  if durationMinutes.toInt ≤ 0 then pure .met
  else do
    match ← connect with
    | .error _ => return .notStarted
    | .ok _ =>
        match ← get (durationKey ruleId deviceId) with
        | .error _ => return .notStarted
        | .ok (some text) =>
            match iso.parse text with
            | .error _ => return .notStarted
            | .ok started =>
                if wholeMinutes (now - started) ≥ durationMinutes.toInt then return .met
                else return .notYetMet
        | .ok none =>
            match iso.format now with
            | .error _ => return .notStarted
            | .ok text =>
                match ← setEx (durationKey ruleId deviceId) text (durationTtl durationMinutes) with
                | .error _ => return .notStarted
                | .ok _ => return .justStarted

def resetDuration (ruleId : Int) (deviceId : String) : M (Except String Unit) := do
  match ← connect with
  | .error e => return .error ("Redis connection failed in reset_duration: " ++ e)
  | .ok _ =>
      match ← del [durationKey ruleId deviceId] with
      | .error e => return .error ("Redis DEL failed in reset_duration: " ++ e)
      | .ok _ => return .ok ()

-- One `redisScan` is a whole cursor iteration: the batches of keys that the SCAN
-- calls return until the cursor is 0 again.
def invalidatePattern (pattern : String) : M Unit := do
  match ← scan pattern with
  | .error _ => return ()
  | .ok batches => Prog.forEach batches fun keys =>
      if keys.isEmpty then pure () else (del keys).bind fun _ => pure ()

def invalidateByRuleIds (ruleIds : List Int) : M (Except String Unit) :=
  if ruleIds.isEmpty then pure (.ok ())
  else do
    match ← connect with
    | .error e => return .error ("Redis connection failed in invalidate_by_rule_ids: " ++ e)
    | .ok _ => do
        Prog.forEach ruleIds fun ruleId => do
          invalidatePattern ("alarm:dedup:" ++ toString ruleId ++ ":*")
          invalidatePattern ("alarm:duration:" ++ toString ruleId ++ ":*")
        return .ok ()

-- For an `i32` throttle neither product of the TTL overflows.
theorem fitsI64_ttl (throttle : Int32) :
    FitsI64 (throttle.toInt * 2) ∧ FitsI64 (throttle.toInt * 2 * 60) := by
  have hlow := throttle.le_toInt
  have hhigh := throttle.toInt_lt
  simp only [FitsI64]
  omega

theorem dedupTtl_eq (throttle : Int32) :
    dedupTtl throttle.toInt = max (120 * throttle.toInt) 60 := by
  rw [dedupTtl, wrapI64_eq (fitsI64_ttl throttle).1, wrapI64_eq (fitsI64_ttl throttle).2]
  omega

@[simps -fullyApplied] def store : RuleStateStore where
  checkDedup := checkDedup iso
  markTriggered := markTriggered iso
  checkDuration := checkDuration iso
  resetDuration := resetDuration
  invalidateByRuleIds := invalidateByRuleIds

end RedisRuleStateStore

-- `rules` is an owned `DashMap`, `state_store` an `Arc`: a clone copies the first
-- and shares the second.
structure RuleCache where
  rules : Nat
  stateStore : RuleStateStore

namespace RuleCache

def clone (cache : RuleCache) : M RuleCache := do
  let copy : Nat ← Prog.perform (Op.mapClone cache.rules)
  return { cache with rules := copy }

def getRules (cache : RuleCache) (productId : String) : M (Option (List AlarmRule)) :=
  Prog.perform (Op.mapGet cache.rules productId)

def setRules (cache : RuleCache) (productId : String) (rules : List AlarmRule) : M Unit :=
  Prog.perform (Op.mapInsert cache.rules productId rules)

def invalidateProduct (cache : RuleCache) (productId : String) : M Unit := do
  let cached ← cache.getRules productId
  let ruleIds := (cached.map fun rules => rules.map (·.id)).getD []
  let _ ← Prog.perform (Op.mapRemove cache.rules productId)
  if ruleIds.isEmpty then pure ()
  else (cache.stateStore.invalidateByRuleIds ruleIds).bind fun _ => pure ()

end RuleCache

end RmqttThings.RuleEngine
