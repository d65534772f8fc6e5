import RmqttThings.RuleEngine.Semantics

namespace RmqttThings.RuleEngine

open Effects

-- The operation writes nothing outside `parts`.
def Op.Within (parts : List Part) (op : Op) : Prop := ∀ part, op.writes = some part → part ∈ parts

theorem within_of_writes_none {parts : List Part} {op : Op} (h : op.writes = none) :
    op.Within parts := by
  simp [Op.Within, h]

theorem within_of_writes {parts : List Part} {op : Op} {part : Part} (h : op.writes = some part)
    (hmem : part ∈ parts) : op.Within parts := by
  simpa [Op.Within, h] using hmem

theorem Op.Within.mono {parts more : List Part} (hsub : ∀ part ∈ parts, part ∈ more) {op : Op}
    (h : op.Within parts) : op.Within more :=
  fun part hw => hsub part (h part hw)

abbrev Writes {α : Type} (parts : List Part) (program : M α) : Prop :=
  program.Uses (Op.Within parts)

theorem Writes.mono {α : Type} {parts more : List Part} {program : M α} (h : Writes parts program)
    (hsub : ∀ part ∈ parts, part ∈ more) : Writes more program :=
  Prog.Uses.mono h fun _ => Op.Within.mono hsub

theorem Writes.same {α : Type} {parts : List Part} {program : M α} (h : Writes parts program)
    (part : Part) (hpart : part ∉ parts) (w : World) : part.Same w (program.final sem w) :=
  final_same (Prog.Uses.mono h fun _ hop he => hpart (hop part he)) w

-- Where a store keeps its marks and its tracked conditions.
structure RuleStateStore.Footprint (store : RuleStateStore) (marks tracks : Part) : Prop where
  checkDedup : ∀ ruleId deviceId throttle now,
    Writes [] (store.checkDedup ruleId deviceId throttle now)
  markTriggered : ∀ ruleId deviceId throttle,
    Writes [marks] (store.markTriggered ruleId deviceId throttle)
  checkDuration : ∀ ruleId deviceId duration now,
    Writes [tracks] (store.checkDuration ruleId deviceId duration now)
  resetDuration : ∀ ruleId deviceId, Writes [tracks] (store.resetDuration ruleId deviceId)

theorem writes_nowUtc (parts : List Part) : Writes parts nowUtc :=
  (Prog.uses_perform _).mpr (within_of_writes_none rfl)

-- The operations of each store function.

namespace InMemoryRuleStateStore

variable (ruleId : Int) (deviceId : String)

theorem ops_checkDedup (throttle : Int) (now : OffsetDateTime) :
    (checkDedup ruleId deviceId throttle now).Uses (· = .dedupGet (stateKey ruleId deviceId)) := by
  unfold checkDedup
  split_ifs
  · trivial
  · refine ⟨rfl, fun stored => ?_⟩
    cases stored <;> trivial

theorem ops_markTriggered (throttle : Int) :
    (markTriggered ruleId deviceId throttle).Uses fun op =>
      op = .nowUtc ∨ ∃ now, op = .dedupInsert (stateKey ruleId deviceId) now :=
  ⟨.inl rfl, fun now => ⟨.inr ⟨now, rfl⟩, fun _ => trivial⟩⟩

theorem ops_checkDuration (duration : Int32) (now : OffsetDateTime) :
    (checkDuration ruleId deviceId duration now).Uses fun op =>
      op = .durationGet (stateKey ruleId deviceId) ∨ op = .durationInsert (stateKey ruleId deviceId)
        now := by
  unfold checkDuration
  split_ifs
  · trivial
  · refine ⟨.inl rfl, fun stored => ?_⟩
    cases stored with
    | none => exact ⟨.inr rfl, fun _ => trivial⟩
    | some started =>
        simp only [Prog.pure_eq, Prog.ret_bind]
        split_ifs <;> trivial

theorem ops_resetDuration :
    (resetDuration ruleId deviceId).Uses (· = .durationRemove (stateKey ruleId deviceId)) :=
  ⟨rfl, fun _ => trivial⟩

theorem footprint : store.Footprint .dedup .durationTracking where
  checkDedup ruleId deviceId throttle now := by
    apply Prog.Uses.mono (ops_checkDedup ruleId deviceId throttle now)
    rintro _ rfl
    exact within_of_writes_none rfl
  markTriggered ruleId deviceId throttle := by
    apply Prog.Uses.mono (ops_markTriggered ruleId deviceId throttle)
    rintro _ (rfl | ⟨now, rfl⟩)
    · exact within_of_writes_none rfl
    · exact within_of_writes rfl (by simp)
  checkDuration ruleId deviceId duration now := by
    apply Prog.Uses.mono (ops_checkDuration ruleId deviceId duration now)
    rintro _ (rfl | rfl)
    · exact within_of_writes_none rfl
    · exact within_of_writes rfl (by simp)
  resetDuration ruleId deviceId := by
    apply Prog.Uses.mono (ops_resetDuration ruleId deviceId)
    rintro _ rfl
    exact within_of_writes rfl (by simp)

end InMemoryRuleStateStore

namespace RedisRuleStateStore

variable (iso : Iso8601) (ruleId : Int) (deviceId : String)

theorem ops_checkDedup (throttle : Int) (now : OffsetDateTime) :
    (checkDedup iso ruleId deviceId throttle now).Uses fun op =>
      op = .redisConnect ∨ op = .redisGet (dedupKey ruleId deviceId) := by
  unfold checkDedup
  split_ifs
  · trivial
  · refine ⟨.inl rfl, fun connected => ?_⟩
    cases connected with
    | error _ => trivial
    | ok _ =>
        refine ⟨.inr rfl, fun stored => ?_⟩
        rcases stored with _ | _ | text
        · trivial
        · trivial
        · simp only [Prog.pure_eq, Prog.ret_bind]
          split <;> trivial

theorem ops_markTriggered (throttle : Int) :
    (markTriggered iso ruleId deviceId throttle).Uses fun op =>
      op = .redisConnect ∨ op = .nowUtc ∨ ∃ now text, iso.format now = .ok text ∧
        op = .redisSet (dedupKey ruleId deviceId) text (dedupTtl throttle) := by
  refine ⟨.inl rfl, fun connected => ?_⟩
  cases connected with
  | error _ => trivial
  | ok _ =>
      refine ⟨.inr (.inl rfl), fun now => ?_⟩
      simp only [Prog.pure_eq, Prog.ret_bind]
      split
      · trivial
      · rename_i text hformat
        refine ⟨.inr (.inr ⟨now, text, hformat, rfl⟩), fun stored => ?_⟩
        cases stored <;> trivial

theorem ops_checkDuration (duration : Int32) (now : OffsetDateTime) :
    (checkDuration iso ruleId deviceId duration now).Uses fun op =>
      op = .redisConnect ∨ op = .redisGet (durationKey ruleId deviceId) ∨ ∃ text,
        iso.format now = .ok text ∧
        op = .redisSet (durationKey ruleId deviceId) text (durationTtl duration) := by
  unfold checkDuration
  split_ifs
  · trivial
  · refine ⟨.inl rfl, fun connected => ?_⟩
    cases connected with
    | error _ => trivial
    | ok _ =>
        refine ⟨.inr (.inl rfl), fun stored => ?_⟩
        rcases stored with _ | _ | text
        · trivial
        · simp only [Prog.pure_eq, Prog.ret_bind]
          split
          · trivial
          · rename_i text hformat
            refine ⟨.inr (.inr ⟨text, hformat, rfl⟩), fun stored => ?_⟩
            cases stored <;> trivial
        · simp only [Prog.pure_eq, Prog.ret_bind]
          split
          · trivial
          · split_ifs <;> trivial

theorem ops_resetDuration :
    (resetDuration ruleId deviceId).Uses fun op =>
      op = .redisConnect ∨ op = .redisDel [durationKey ruleId deviceId] := by
  refine ⟨.inl rfl, fun connected => ?_⟩
  cases connected with
  | error _ => trivial
  | ok _ =>
      refine ⟨.inr rfl, fun deleted => ?_⟩
      cases deleted <;> trivial

theorem footprint : (store iso).Footprint .redis .redis where
  checkDedup ruleId deviceId throttle now := by
    apply Prog.Uses.mono (ops_checkDedup iso ruleId deviceId throttle now)
    rintro _ (rfl | rfl) <;> exact within_of_writes_none rfl
  markTriggered ruleId deviceId throttle := by
    apply Prog.Uses.mono (ops_markTriggered iso ruleId deviceId throttle)
    rintro _ (rfl | rfl | ⟨now, text, -, rfl⟩)
    · exact within_of_writes_none rfl
    · exact within_of_writes_none rfl
    · exact within_of_writes rfl (by simp)
  checkDuration ruleId deviceId duration now := by
    apply Prog.Uses.mono (ops_checkDuration iso ruleId deviceId duration now)
    rintro _ (rfl | rfl | ⟨text, -, rfl⟩)
    · exact within_of_writes_none rfl
    · exact within_of_writes_none rfl
    · exact within_of_writes rfl (by simp)
  resetDuration ruleId deviceId := by
    apply Prog.Uses.mono (ops_resetDuration ruleId deviceId)
    rintro _ (rfl | rfl)
    · exact within_of_writes_none rfl
    · exact within_of_writes rfl (by simp)

end RedisRuleStateStore

section Engine

variable (repo : AlarmRepo) (ctx : TriggerContext) {cache : RuleCache} {marks tracks : Part}
  (h : cache.stateStore.Footprint marks tracks)

-- What follows the insert of an alarm: the webhooks, and the record of their outcome.
def Op.Reports : Op → Prop
  | .nowUtc | .sendWebhook _ _ | .sql (.updateAlarmWebhookStatus _ _)
  | .sql (.updateAlarmWebhookStatusWithRetry _ _ _ _) => True
  | _ => False

theorem Op.Reports.within {op : Op} (h : op.Reports) : op.Within [.alarms] := by
  unfold Op.Reports at h
  split at h <;> simp_all [Op.Within, Op.writes, Sql.writes]

theorem reports_sendWebhooks (payload : Json) (urls : List String) (anyFailed : Bool) :
    (sendWebhooks payload urls anyFailed).Uses Op.Reports := by
  induction urls generalizing anyFailed with
  | nil => trivial
  | cons url urls ih =>
      refine ⟨trivial, fun sent => ?_⟩
      cases sent <;> exact ih _

theorem reports_recordWebhooks (alarmId : Int) (failed : Bool) :
    (recordWebhooks repo alarmId failed).Uses Op.Reports := by
  unfold recordWebhooks
  split_ifs
  · exact ⟨trivial, fun _ => ⟨trivial, fun _ => trivial⟩⟩
  · exact ⟨trivial, fun _ => trivial⟩

section Uses

variable {allowed : Op → Prop} (rule : AlarmRule)

theorem uses_executeActions {actions : List Json} {ruleId : Int} {ruleName : String}
    (hinsert : allowed (.sql (.insertAlarm (newAlarm (parseActions actions) ctx ruleId ruleName))))
    (hreports : ∀ op : Op, op.Reports → allowed op) :
    (executeActions repo actions ctx ruleId ruleName).Uses allowed := by
  refine ⟨hinsert, fun inserted => ?_⟩
  cases inserted with
  | error _ => trivial
  | ok alarmId =>
      simp only [Prog.pure_eq, Prog.ret_bind]
      split_ifs
      · trivial
      · apply ((reports_sendWebhooks _ _ _).mono hreports).bind
        exact fun failed => ((reports_recordWebhooks repo alarmId failed).mono hreports).bind
          fun _ => trivial

theorem uses_sustained (hnow : allowed .nowUtc)
    (hcheck : ∀ now, (cache.stateStore.checkDuration rule.id ctx.deviceId rule.durationMinutes
      now).Uses allowed) :
    (sustained nowUtc ctx cache rule).Uses allowed := by
  unfold sustained
  split_ifs
  · exact ⟨hnow, fun instant => (hcheck instant).bind fun _ => trivial⟩
  · trivial

theorem uses_resetTracking
    (hreset : (cache.stateStore.resetDuration rule.id ctx.deviceId).Uses allowed) :
    (resetTracking ctx cache rule).Uses allowed :=
  hreset.bind fun _ => trivial

theorem uses_fire (hnow : allowed .nowUtc)
    (hcheck : ∀ now, (cache.stateStore.checkDedup rule.id ctx.deviceId rule.throttleMinutes.toInt
      now).Uses allowed)
    (hmark : (cache.stateStore.markTriggered rule.id ctx.deviceId rule.throttleMinutes.toInt).Uses
      allowed)
    (hactions : ∀ actions, (executeActions repo actions ctx rule.id rule.name).Uses allowed) :
    (fire repo nowUtc ctx cache rule).Uses allowed := by
  refine ⟨hnow, fun instant => (hcheck instant).bind fun skip => ?_⟩
  split_ifs
  · trivial
  · exact hmark.bind fun _ => (hactions _).bind fun _ => trivial

theorem uses_evaluateRule (hsustained : (sustained nowUtc ctx cache rule).Uses allowed)
    (hfire : (fire repo nowUtc ctx cache rule).Uses allowed)
    (hreset : (resetTracking ctx cache rule).Uses allowed) :
    (evaluateRule repo nowUtc ctx cache rule).Uses allowed := by
  unfold evaluateRule
  split
  · trivial
  · split_ifs
    · apply hsustained.bind
      intro holds
      cases holds with
      | false => trivial
      | true => exact hfire
    · exact hreset
    · trivial

theorem uses_clearRule (hquery : allowed (.sql (.queryActiveAlarmsForClear rule.id ctx.deviceId)))
    (hclear : ∀ id, allowed (.sql (.clearAlarm id)))
    (hreset : (resetTracking ctx cache rule).Uses allowed) :
    (clearRule ctx cache rule).Uses allowed := by
  unfold clearRule
  split_ifs
  · trivial
  · split
    · trivial
    · refine ⟨hquery, fun found => ?_⟩
      cases found with
      | error _ => trivial
      | ok active =>
          simp only [Prog.pure_eq, Prog.ret_bind]
          split_ifs
          · trivial
          · split
            · trivial
            · split_ifs
              · apply Prog.Uses.bind
                · exact Prog.Uses.forEach fun alarm _ => ⟨hclear alarm.id, fun _ => trivial⟩
                · exact fun _ => hreset
              · trivial

-- The evaluation of a list of rules, where the four functions of the store that it
-- calls for its device stay within `allowed` whatever their other arguments are.
theorem uses_evaluateRules
    (hcheck : ∀ ruleId throttle now,
      (cache.stateStore.checkDedup ruleId ctx.deviceId throttle now).Uses allowed)
    (hmark : ∀ ruleId throttle,
      (cache.stateStore.markTriggered ruleId ctx.deviceId throttle).Uses allowed)
    (hduration : ∀ ruleId duration now,
      (cache.stateStore.checkDuration ruleId ctx.deviceId duration now).Uses allowed)
    (hreset : ∀ ruleId, (cache.stateStore.resetDuration ruleId ctx.deviceId).Uses allowed)
    (hnow : allowed .nowUtc) (hinsert : ∀ alarm, allowed (.sql (.insertAlarm alarm)))
    (hreports : ∀ op : Op, op.Reports → allowed op)
    (hquery : ∀ ruleId deviceId, allowed (.sql (.queryActiveAlarmsForClear ruleId deviceId)))
    (hclear : ∀ id, allowed (.sql (.clearAlarm id))) (rules : List AlarmRule) :
    (evaluateRules repo nowUtc ctx cache rules).Uses allowed := by
  have htracking (rule : AlarmRule) : (resetTracking ctx cache rule).Uses allowed :=
    uses_resetTracking ctx rule (hreset _)
  apply Prog.Uses.bind
  · refine Prog.Uses.forEach fun rule _ => uses_evaluateRule repo ctx rule
      (uses_sustained ctx rule hnow fun _ => hduration _ _ _) ?_ (htracking rule)
    exact uses_fire repo ctx rule hnow (fun _ => hcheck _ _ _) (hmark _ _) fun _ =>
      uses_executeActions repo ctx (hinsert _) hreports
  · intro _
    split_ifs
    · exact Prog.Uses.forEach fun rule _ => uses_clearRule ctx rule (hquery _ _) hclear
        (htracking rule)
    · trivial

end Uses

theorem writes_loadRules (cache : RuleCache) : Writes [.maps] (loadRules ctx cache) := by
  refine ⟨within_of_writes_none rfl, fun cached => ?_⟩
  cases cached with
  | some rules => trivial
  | none =>
      refine ⟨within_of_writes_none rfl, fun found => ?_⟩
      cases found with
      | error _ => trivial
      | ok rules => exact ⟨within_of_writes rfl (by simp), fun _ => trivial⟩

theorem writes_executeActions (actions : List Json) (ruleId : Int) (ruleName : String) :
    Writes [.alarms] (executeActions repo actions ctx ruleId ruleName) :=
  uses_executeActions repo ctx (within_of_writes rfl (by simp)) fun _ => Op.Reports.within

include h

theorem writes_sustained (rule : AlarmRule) : Writes [tracks] (sustained nowUtc ctx cache rule) :=
  uses_sustained ctx rule (within_of_writes_none rfl) fun _ => h.checkDuration _ _ _ _

theorem writes_resetTracking (rule : AlarmRule) : Writes [tracks] (resetTracking ctx cache rule) :=
  uses_resetTracking ctx rule (h.resetDuration _ _)

theorem writes_fire (rule : AlarmRule) :
    Writes [marks, .alarms] (fire repo nowUtc ctx cache rule) :=
  uses_fire repo ctx rule (within_of_writes_none rfl) (fun _ => (h.checkDedup _ _ _ _).mono
    (by simp)) ((h.markTriggered _ _ _).mono (by simp))
    fun _ => (writes_executeActions repo ctx _ _ _).mono (by simp)

theorem writes_evaluateRule (rule : AlarmRule) :
    Writes [marks, tracks, .alarms] (evaluateRule repo nowUtc ctx cache rule) :=
  uses_evaluateRule repo ctx rule ((writes_sustained ctx h rule).mono (by simp))
    ((writes_fire repo ctx h rule).mono (by simp)) ((writes_resetTracking ctx h rule).mono
      (by simp))

theorem writes_clearRule (rule : AlarmRule) : Writes [tracks, .alarms] (clearRule ctx cache rule) :=
  uses_clearRule ctx rule (within_of_writes_none rfl) (fun _ => within_of_writes rfl (by simp))
    ((writes_resetTracking ctx h rule).mono (by simp))

end Engine

end RmqttThings.RuleEngine
