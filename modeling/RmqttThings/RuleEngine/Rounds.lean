import RmqttThings.RuleEngine.AlarmTable
import RmqttThings.RuleEngine.InMemoryRuns
import RmqttThings.RuleEngine.Keys
import RmqttThings.RuleEngine.Reference

namespace RmqttThings.RuleEngine

open Effects
open InMemoryRuleStateStore (stateKey)

-- The database is up, and time passes only between contexts.
structure World.Calm (w : World) : Prop where
  still : w.Still
  sqlUp : ∀ n, w.sqlFaults n = none

-- A row without its id and its webhook columns.
def AlarmRecord.plain (row : AlarmRecord) : AlarmRecord :=
  { row with id := 0, webhookStatus := none, webhookRetriesLeft := 0, webhookNextRetryAt := none }

section Frames

variable {w : World}

theorem World.Calm.step (h : w.Calm) (op : Op) : (sem op w).2.Calm := by
  refine ⟨fun n => ?_, sqlUp_step h.sqlUp⟩
  rw [sem_delays, World.tick_delays]
  exact h.still (n + 1)

theorem World.Calm.popSql (h : w.Calm) : w.popSql = w := by
  have hfaults : (fun n => w.sqlFaults (n + 1)) = w.sqlFaults := by
    funext n
    rw [h.sqlUp, h.sqlUp]
  simp only [World.popSql, hfaults]

variable {α : Type} (program : M α)

theorem World.Calm.final (h : w.Calm) : (program.final sem w).Calm :=
  program.uses_true.final _ (fun op _ _ h => h.step op) h

theorem World.Calm.final_clock (h : w.Calm) : (program.final sem w).clock = w.clock := by
  have hinv : (program.final sem w).Calm ∧ (program.final sem w).clock = w.clock := by
    refine program.uses_true.final (fun w' : World => w'.Calm ∧ w'.clock = w.clock)
      (fun op w' _ hw => ?_) ⟨h, rfl⟩
    refine ⟨hw.1.step op, ?_⟩
    rw [sem_clock, hw.1.still.tick]
    exact hw.2
  exact hinv.2

end Frames

section Effects

variable {repo : AlarmRepo} {map : Nat} {ctx : TriggerContext} {rule : AlarmRule} {w : World}

theorem updateWhere_plain {cond : AlarmRecord → Bool} {set : AlarmRecord → AlarmRecord}
    (hset : ∀ row, (set row).plain = row.plain) (rows : List AlarmRecord) :
    (updateWhere rows cond set).2.map AlarmRecord.plain = rows.map AlarmRecord.plain := by
  simp only [updateWhere, List.map_map]
  refine List.map_congr_left fun row _ => ?_
  simp only [Function.comp_apply]
  split_ifs
  · exact hset row
  · rfl

theorem reports_plain {op : Op} (hop : op.Reports) (w : World) :
    (sem op w).2.tables.alarms.map AlarmRecord.plain = w.tables.alarms.map AlarmRecord.plain := by
  unfold Op.Reports at hop
  split at hop
  · rfl
  · simp only [sem, Op.exec]
    split <;> rfl
  · simp only [sem, Op.exec]
    split
    · rfl
    · apply updateWhere_plain
      exact fun _ => rfl
  · simp only [sem, Op.exec]
    split
    · rfl
    · apply updateWhere_plain
      exact fun _ => rfl
  · exact absurd hop id

-- The actions append the alarm; the webhooks do not change what is compared.
theorem executeActions_plain (h : w.Calm) (actions : List Json) :
    ((executeActions repo actions ctx rule.id rule.name).final sem w).tables.alarms.map
      AlarmRecord.plain =
      w.tables.alarms.map AlarmRecord.plain ++
        [(newAlarm (parseActions actions) ctx rule.id rule.name).toRecord 0 w.clock] := by
  have hwp : (executeActions repo actions ctx rule.id rule.name).wp sem (fun _ _ w' =>
      w'.tables.alarms.map AlarmRecord.plain = w.tables.alarms.map AlarmRecord.plain ++
        [(newAlarm (parseActions actions) ctx rule.id rule.name).toRecord 0 w.clock]) [] w := by
    refine executeActions_wp (fun _ w' => w'.tables.alarms.map AlarmRecord.plain = _)
      (fun op _ w' hop hinv => (reports_plain hop w').trans hinv) ?_
    simp [sem, h.still.tick, Op.exec, h.sqlUp, Sql.exec, NewAlarm.toRecord, AlarmRecord.plain]
  exact (Prog.wp_iff _ _ _).mp hwp

-- The two checks, by the cells of the rule and device.
def Held (ctx : TriggerContext) (rule : AlarmRule) (w : World) : Prop :=
  tracksDuration ctx rule = true → ∃ t, w.durationTracking (stateKey rule.id ctx.deviceId) =
    some t ∧ rule.durationMinutes.toInt ≤ wholeMinutes (w.clock - t)

def Recent (ctx : TriggerContext) (rule : AlarmRule) (w : World) : Prop :=
  0 < rule.throttleMinutes.toInt ∧ ∃ t, w.dedup (stateKey rule.id ctx.deviceId) = some t ∧
    wholeMinutes (w.clock - t) < rule.throttleMinutes.toInt

variable (map ctx rule) in
theorem run_dedupCheck (h : w.Still) :
    ∃ skip, (dedupCheck ctx rule w ⟨map, InMemoryRuleStateStore.store⟩).run sem w.tick = (skip, w) ∧
      (skip = true ↔ Recent ctx rule w) := by
  simp only [dedupCheck, InMemoryRuleStateStore.store_checkDedup, h.tick]
  by_cases hpos : 0 < rule.throttleMinutes.toInt
  · refine ⟨_, run_inMemory_dedup h rule.id ctx.deviceId w.clock hpos, ?_⟩
    cases hcell : w.dedup (stateKey rule.id ctx.deviceId) with
    | none => simp [Recent, hcell]
    | some t => simp [Recent, hcell, hpos]
  · refine ⟨false, ?_, by simp [Recent, hpos]⟩
    rw [InMemoryRuleStateStore.checkDedup, if_pos (not_lt.mp hpos)]
    rfl

-- A trigger that passes is marked and then acted upon.
def triggered (repo : AlarmRepo) (ctx : TriggerContext) (rule : AlarmRule) (w : World) : World :=
  (executeActions repo (rule.actions.asArray.getD []) ctx rule.id rule.name).final sem
    (w.withDedup (Function.update w.dedup (stateKey rule.id ctx.deviceId) (some w.clock)))

variable (repo map ctx rule) in
theorem fire_effect (h : w.Still) :
    (Recent ctx rule w ∧ (fire repo nowUtc ctx ⟨map, InMemoryRuleStateStore.store⟩ rule).final
      sem w = w) ∨ (¬Recent ctx rule w ∧
        (fire repo nowUtc ctx ⟨map, InMemoryRuleStateStore.store⟩ rule).final sem w =
          triggered repo ctx rule w) := by
  obtain ⟨skip, hrun, hskip⟩ := run_dedupCheck map ctx rule h
  cases skip with
  | true =>
      refine .inl ⟨hskip.mp rfl, ?_⟩
      rw [fire_final_skipped ctx rule w (by rw [hrun])]
      simp only [Prog.final, hrun]
  | false =>
      refine .inr ⟨fun hrecent => by simpa using hskip.mpr hrecent, ?_⟩
      rw [fire_final_passed ctx rule w (by rw [hrun])]
      simp only [Prog.final, hrun, InMemoryRuleStateStore.store_markTriggered, run_inMemory_mark h]
      rfl

@[simp] theorem triggered_dedup :
    (triggered repo ctx rule w).dedup =
      Function.update w.dedup (stateKey rule.id ctx.deviceId) (some w.clock) :=
  (writes_executeActions repo ctx _ _ _).same .dedup (by simp) _

@[simp] theorem triggered_durationTracking :
    (triggered repo ctx rule w).durationTracking = w.durationTracking :=
  (writes_executeActions repo ctx _ _ _).same .durationTracking (by simp) _

theorem triggered_alarms (h : w.Calm) :
    (triggered repo ctx rule w).tables.alarms.map AlarmRecord.plain =
      w.tables.alarms.map AlarmRecord.plain ++
      [(newAlarm (parseActions (rule.actions.asArray.getD [])) ctx rule.id rule.name).toRecord 0
        w.clock] :=
  executeActions_plain (w :=
    w.withDedup (Function.update w.dedup (stateKey rule.id ctx.deviceId) (some w.clock)))
    ⟨h.still, h.sqlUp⟩ _

-- Everything the round of a rule can do.
inductive RuleEffect (repo : AlarmRepo) (ctx : TriggerContext) (rule : AlarmRule) (w : World) :
    World → Prop where
  | ignored (hsatisfies : ¬Satisfies rule ctx) (hfails : ¬Fails rule ctx) :
      RuleEffect repo ctx rule w w
  | untracked (hfails : Fails rule ctx) (htracks : tracksDuration ctx rule = false) :
      RuleEffect repo ctx rule w w
  | failed (hfails : Fails rule ctx) (htracks : tracksDuration ctx rule = true) :
      RuleEffect repo ctx rule w (w.withDurationTracking
        (Function.update w.durationTracking (stateKey rule.id ctx.deviceId) none))
  | started (hsatisfies : Satisfies rule ctx) (htracks : tracksDuration ctx rule = true)
      (hcell : w.durationTracking (stateKey rule.id ctx.deviceId) = none) :
      RuleEffect repo ctx rule w (w.withDurationTracking
        (Function.update w.durationTracking (stateKey rule.id ctx.deviceId) (some w.clock)))
  | waiting (hsatisfies : Satisfies rule ctx) (htracks : tracksDuration ctx rule = true)
      (hcell : w.durationTracking (stateKey rule.id ctx.deviceId) ≠ none)
      (hheld : ¬Held ctx rule w) :
      RuleEffect repo ctx rule w w
  | suppressed (hsatisfies : Satisfies rule ctx) (hheld : Held ctx rule w)
      (hrecent : Recent ctx rule w) :
      RuleEffect repo ctx rule w w
  | fired (hsatisfies : Satisfies rule ctx) (hheld : Held ctx rule w)
      (hrecent : ¬Recent ctx rule w) :
      RuleEffect repo ctx rule w (triggered repo ctx rule w)

theorem pos_of_tracksDuration (h : tracksDuration ctx rule = true) :
    0 < rule.durationMinutes.toInt := by
  simp only [tracksDuration, Bool.and_eq_true, decide_eq_true_eq] at h
  exact h.2

-- The duration check, by the cell of the rule and device.
theorem run_sustained (h : w.Still) (htracks : tracksDuration ctx rule = true) :
    (sustained nowUtc ctx ⟨map, InMemoryRuleStateStore.store⟩ rule).run sem w =
      match w.durationTracking (stateKey rule.id ctx.deviceId) with
      | none => (false, w.withDurationTracking
          (Function.update w.durationTracking (stateKey rule.id ctx.deviceId) (some w.clock)))
      | some t => (decide (rule.durationMinutes.toInt ≤ wholeMinutes (w.clock - t)), w) := by
  have hpos := pos_of_tracksDuration htracks
  simp only [sustained, htracks, if_true, Prog.bind_eq, Prog.run_bind, run_nowUtc h,
    InMemoryRuleStateStore.store_checkDuration]
  cases hcell : w.durationTracking (stateKey rule.id ctx.deviceId) with
  | none => simp [run_inMemory_check_none h rule.id ctx.deviceId w.clock hpos hcell]
  | some t =>
      rw [run_inMemory_check_some h rule.id ctx.deviceId w.clock hpos hcell]
      by_cases hle : wholeMinutes (w.clock - t) ≥ rule.durationMinutes.toInt
      · simp [hle]
      · simp [hle]

variable (repo map ctx rule) in
theorem evaluateRule_effect (h : w.Still) :
    RuleEffect repo ctx rule w
      ((evaluateRule repo nowUtc ctx ⟨map, InMemoryRuleStateStore.store⟩ rule).final sem w) := by
  have hfire (hsatisfies : Satisfies rule ctx) (hheld : Held ctx rule w) :
      RuleEffect repo ctx rule w
        ((fire repo nowUtc ctx ⟨map, InMemoryRuleStateStore.store⟩ rule).final sem w) := by
    rcases fire_effect repo map ctx rule h with ⟨hrecent, he⟩ | ⟨hrecent, he⟩
    · rw [he]
      exact .suppressed hsatisfies hheld hrecent
    · rw [he]
      exact .fired hsatisfies hheld hrecent
  cases hactual : actualValue ctx rule with
  | none =>
      simp only [evaluateRule, hactual]
      exact .ignored (by simp [Satisfies, hactual]) (by simp [Fails, hactual])
  | some actual =>
      cases hcondition : RuleEvaluator.evaluate rule.condition actual with
      | false =>
          have hfails : Fails rule ctx := ⟨actual, hactual, hcondition⟩
          simp only [evaluateRule, hactual, hcondition, Bool.false_eq_true, if_false]
          split_ifs with htracks
          · simp only [resetTracking, InMemoryRuleStateStore.store_resetDuration, Prog.bind_eq,
              Prog.final, Prog.run_bind, run_inMemory_reset h]
            exact .failed hfails htracks
          · exact .untracked hfails (by simpa using htracks)
      | true =>
          have hsatisfies : Satisfies rule ctx := ⟨actual, hactual, hcondition⟩
          simp only [evaluateRule, hactual, hcondition, if_true, Prog.bind_eq, Prog.final,
            Prog.run_bind]
          cases htracks : tracksDuration ctx rule with
          | false =>
              simp only [sustained, htracks, Bool.false_eq_true, if_false, Prog.pure_eq,
                Prog.run_ret, if_true]
              exact hfire hsatisfies (by simp [Held, htracks])
          | true =>
              rw [run_sustained h htracks]
              cases hcell : w.durationTracking (stateKey rule.id ctx.deviceId) with
              | none => exact .started hsatisfies htracks hcell
              | some t =>
                  by_cases hle : rule.durationMinutes.toInt ≤ wholeMinutes (w.clock - t)
                  · simp only [hle, decide_true, if_true]
                    exact hfire hsatisfies fun _ => ⟨t, hcell, hle⟩
                  · simp only [hle, decide_false, Bool.false_eq_true, if_false]
                    refine .waiting hsatisfies htracks (by simp [hcell]) fun hheld => ?_
                    obtain ⟨t', ht', hle'⟩ := hheld htracks
                    rw [hcell, Option.some.injEq] at ht'
                    exact hle (ht' ▸ hle')

-- The rows that the query of the clear loop finds.
def Open (ctx : TriggerContext) (rule : AlarmRule) (row : AlarmRecord) : Prop :=
  row.ruleId = rule.id ∧ row.deviceId = ctx.deviceId ∧ row.status ≠ .cleared

def activeAlarms (ctx : TriggerContext) (rule : AlarmRule) (alarms : List AlarmRecord) :
    List AlarmRecord :=
  alarms.filter fun row => row.ruleId == rule.id && row.deviceId == ctx.deviceId &&
    (row.status == .active || row.status == .acknowledged)

theorem mem_activeAlarms {alarms : List AlarmRecord} {row : AlarmRecord} :
    row ∈ activeAlarms ctx rule alarms ↔ row ∈ alarms ∧ Open ctx rule row := by
  have hstatus : row.status = .active ∨ row.status = .acknowledged ↔ row.status ≠ .cleared := by
    cases row.status <;> simp
  simp [activeAlarms, Open, hstatus, and_assoc]

theorem clearAlarms_final (targets : List AlarmRecord) (h : w.Calm) :
    ((clearAlarms targets).final sem w).tables.alarms = w.tables.alarms.map fun row =>
      if row.id ∈ targets.map (·.id) ∧ row.status ≠ .cleared then row.clearedNow w.clock
      else row := by
  induction targets generalizing w with
  | nil => simp [clearAlarms]
  | cons target targets ih =>
      have hstep : (sem (.sql (.clearAlarm target.id)) w).2.tables.alarms =
          w.tables.alarms.map fun row =>
          if row.id == target.id && row.status != .cleared then row.clearedNow w.clock
          else row := by
        simp [sem, h.still.tick, Op.exec, h.sqlUp, Sql.exec, updateWhere]
      have hclock : (sem (.sql (.clearAlarm target.id)) w).2.clock = w.clock := by
        rw [sem_clock, h.still.tick]
      have hrest := ih (h.step (.sql (.clearAlarm target.id)))
      rw [hstep, hclock, List.map_map] at hrest
      refine Eq.trans ?_ (hrest.trans (List.map_congr_left fun row _ => ?_))
      · simp only [clearAlarms, Prog.final_forEach_cons]
        rfl
      · by_cases hid : row.id = target.id
        · by_cases hstatus : row.status = .cleared
          · simp [hid, hstatus]
          · simp [hid, hstatus, AlarmRecord.clearedNow]
        · simp [hid]

theorem clearHolds_eq (hkind : ctx.triggerType = .property) (htype : rule.triggerType = "property")
    {clearCondition : Json} (hclear : rule.clearCondition = some clearCondition) :
    Reference.clearHolds rule ctx = true ↔
      ∃ actual, rule.propertyName.bind (extractPropertyValue ctx.triggerValue) = some actual ∧
        RuleEvaluator.evaluate clearCondition actual = true := by
  simp only [Reference.clearHolds, hkind, htype, decide_true, Bool.true_and, hclear,
    Reference.propertyValue_eq]
  cases Reference.propertyValue ctx rule <;> simp

-- The clear loop at a rule: with a clear condition that holds and an open alarm, the
-- open alarms are cleared and the tracking starts over.
inductive ClearEffect (ctx : TriggerContext) (rule : AlarmRule) (w w' : World) : Prop where
  | idle (hnot : ¬(Reference.clearHolds rule ctx = true ∧ ∃ row ∈ w.tables.alarms,
      Open ctx rule row))
      (halarms : w'.tables.alarms = w.tables.alarms) (hdedup : w'.dedup = w.dedup)
      (htracking : w'.durationTracking = w.durationTracking)
  | cleared (hholds : Reference.clearHolds rule ctx = true) (hopen : ∃ row ∈ w.tables.alarms,
      Open ctx rule row)
      (halarms : w'.tables.alarms = w.tables.alarms.map (Reference.cleared rule ⟨w.clock, ctx⟩))
      (hdedup : w'.dedup = w.dedup)
      (htracking : w'.durationTracking =
        Function.update w.durationTracking (stateKey rule.id ctx.deviceId) none)

theorem clearedAlarms_eq (hfresh : w.Fresh) (hholds : Reference.clearHolds rule ctx = true) :
    (w.tables.alarms.map fun row =>
      if row.id ∈ (activeAlarms ctx rule w.tables.alarms).map (·.id) ∧ row.status ≠ .cleared then
        row.clearedNow w.clock else row) =
      w.tables.alarms.map (Reference.cleared rule ⟨w.clock, ctx⟩) := by
  refine List.map_congr_left fun row hrow => ?_
  have hmem : row.id ∈ (activeAlarms ctx rule w.tables.alarms).map (·.id) ↔ Open ctx rule row := by
    constructor
    · intro h
      obtain ⟨other, hother, hid⟩ := List.mem_map.mp h
      obtain ⟨hin, hopen⟩ := mem_activeAlarms.mp hother
      obtain rfl := List.inj_on_of_nodup_map hfresh.nodup hin hrow hid
      exact hopen
    · intro h
      exact List.mem_map.mpr ⟨row, mem_activeAlarms.mpr ⟨hrow, h⟩, rfl⟩
  have hiff : (Open ctx rule row ∧ row.status ≠ .cleared) ↔ (Reference.clearHolds rule ctx = true ∧
      row.ruleId = rule.id ∧ row.deviceId = ctx.deviceId ∧ row.status ≠ .cleared) := by
    simp only [Open, hholds, true_and]
    tauto
  simp only [hmem, Reference.cleared, hiff]

theorem clearRule_effect (h : w.Calm) (hfresh : w.Fresh) (hkind : ctx.triggerType = .property) :
    ClearEffect ctx rule w ((clearRule ctx ⟨map, InMemoryRuleStateStore.store⟩ rule).final
      sem w) := by
  unfold clearRule
  split_ifs with htype
  · refine .idle ?_ rfl rfl rfl
    simp [Reference.clearHolds, htype]
  · split
    · rename_i hclear
      refine .idle ?_ rfl rfl rfl
      simp [Reference.clearHolds, hclear]
    · rename_i clearCondition hclear
      have hholds := clearHolds_eq hkind (not_not.mp htype) hclear
      have hquery : sem (.sql (.queryActiveAlarmsForClear rule.id ctx.deviceId)) w =
          (.ok (activeAlarms ctx rule w.tables.alarms), w) := by
        simp only [sem, h.still.tick, Op.exec, h.sqlUp, Sql.exec, h.popSql]
        rfl
      simp only [query, Prog.bind_eq, Prog.perform_bind, Prog.final, Prog.run_call, hquery]
      split_ifs with hempty
      · refine .idle ?_ rfl rfl rfl
        rintro ⟨-, row, hrow, hopen⟩
        have hmem := mem_activeAlarms.mpr ⟨hrow, hopen⟩
        simp [List.isEmpty_iff.mp hempty] at hmem
      · obtain ⟨row, hrow⟩ := List.exists_mem_of_ne_nil _ (by simpa using hempty)
        have hopen : ∃ row ∈ w.tables.alarms, Open ctx rule row := ⟨row, mem_activeAlarms.mp hrow⟩
        split
        · rename_i hvalue
          refine .idle ?_ rfl rfl rfl
          simp [hholds, hvalue]
        · rename_i actual hvalue
          split_ifs with hcondition
          · have hcalm : ((clearAlarms (activeAlarms ctx rule w.tables.alarms)).run sem w).2.Calm :=
              h.final _
            have hclears : Writes [.alarms] (clearAlarms (activeAlarms ctx rule w.tables.alarms)) :=
              Prog.Uses.forEach fun _ _ => ⟨within_of_writes rfl (by simp), fun _ => trivial⟩
            have hdedup := hclears.same .dedup (by simp) w
            have htracking := hclears.same .durationTracking (by simp) w
            have halarms := clearAlarms_final (activeAlarms ctx rule w.tables.alarms) h
            have hheld := hholds.mpr ⟨actual, hvalue, hcondition⟩
            simp only [Prog.run_bind, resetTracking, Prog.bind_eq,
              InMemoryRuleStateStore.store_resetDuration]
            rw [run_inMemory_reset hcalm.still]
            refine .cleared hheld hopen ?_ hdedup ?_
            · rw [← clearedAlarms_eq hfresh hheld]
              exact halarms
            · simp only [Part.Same, Prog.final] at htracking
              simp [htracking]
          · refine .idle ?_ rfl rfl rfl
            simp [hholds, hvalue, hcondition]

end Effects

end RmqttThings.RuleEngine
