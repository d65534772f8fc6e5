import RmqttThings.RuleEngine.Runs
import RmqttThings.RuleEngine.AlarmTable
import RmqttThings.RuleEngine.Keys

namespace RmqttThings.RuleEngine

open Effects
open InMemoryRuleStateStore (stateKey)

section InMemory

variable (catalogue : String → List AlarmRule)

-- Every insert of an alarm of a throttled rule has succeeded.
def InsertsHold (past : Past) : Prop :=
  ∀ alarm error, (⟨.sql (.insertAlarm alarm), .error error⟩ : Event Op.Ans) ∈ past →
    ∀ productId, ∀ rule ∈ catalogue productId, rule.id = alarm.ruleId →
      rule.throttleMinutes.toInt ≤ 0

-- Behind every mark of a throttled rule, outside of `pending`, stands an alarm that
-- was created no earlier.
def Justified (pending : String → Prop) (w : World) : Prop :=
  ∀ productId, ∀ rule ∈ catalogue productId, 0 < rule.throttleMinutes.toInt → ∀ deviceId marked,
    w.dedup (stateKey rule.id deviceId) = some marked → ¬pending (stateKey rule.id deviceId) →
    ∃ row ∈ w.tables.alarms, row.ruleId = rule.id ∧ row.deviceId = deviceId ∧
      marked ≤ row.createdAt ∧ row.createdAt ≤ w.clock

variable {catalogue}

theorem InsertsHold.tail {event : Event Op.Ans} {past : Past}
    (h : InsertsHold catalogue (event :: past)) :
    InsertsHold catalogue past :=
  fun alarm error hmem => h alarm error (List.mem_cons_of_mem _ hmem)

-- Rows stay, and the clock does not go back.
theorem exists_row_step {op : Op} {w : World} {ruleId : Int} {deviceId : String}
    {marked : OffsetDateTime}
    (h : ∃ row ∈ w.tables.alarms, row.ruleId = ruleId ∧ row.deviceId = deviceId ∧
      marked ≤ row.createdAt ∧ row.createdAt ≤ w.clock) :
    ∃ row ∈ (sem op w).2.tables.alarms, row.ruleId = ruleId ∧ row.deviceId = deviceId ∧
      marked ≤ row.createdAt ∧ row.createdAt ≤ (sem op w).2.clock := by
  obtain ⟨row, hrow, hrule, hdevice, hmarked, hcreated⟩ := h
  have hclock : row.createdAt ≤ (sem op w).2.clock := by
    rw [sem_clock]
    exact hcreated.trans w.clock_le_tick
  rcases sem_alarms op w with ⟨alarm, -, -, ha, -⟩ | ⟨step, hstep, ha, -⟩
  · exact ⟨row, by simp [ha, hrow], hrule, hdevice, hmarked, hclock⟩
  · have hsame := (hstep row).sameAlarm
    refine ⟨step row, by rw [ha]; exact List.mem_map_of_mem hrow, hsame.ruleId.trans hrule,
      hsame.deviceId.trans hdevice, ?_, ?_⟩
    · rwa [hsame.createdAt]
    · rwa [hsame.createdAt]

theorem Justified.step {op : Op} {pending : String → Prop} {w : World}
    (h : Justified catalogue pending w)
    (hop : op.writes ≠ some .dedup) : Justified catalogue pending (sem op w).2 := by
  intro productId rule hrule hpos deviceId marked hmark hpending
  have hsame : (sem op w).2.dedup = w.dedup := sem_same .dedup hop w
  rw [hsame] at hmark
  exact exists_row_step (h productId rule hrule hpos deviceId marked hmark hpending)

variable (catalogue) in
def Linked (cache : RuleCache) (pending : String → Prop) (past : Past) (w : World) :
    Prop :=
  Serves cache catalogue w ∧ (InsertsHold catalogue past → Justified catalogue pending w)

variable {cache : RuleCache} {pending : String → Prop}

theorem Linked.step {past : Past} {w : World} (h : Linked catalogue cache pending past w) (op : Op)
    (hop : op.Within [.durationTracking, .alarms]) :
    Linked catalogue cache pending (⟨op, (sem op w).1⟩ :: past) (sem op w).2 := by
  refine ⟨h.1.step op (fun he => ?_) (fun he => ?_), fun hholds => (h.2 hholds.tail).step fun he =>
    ?_⟩
  all_goals simpa using hop _ he

theorem Linked.wp {α : Type} {program : M α} {parts : List Part} {past : Past} {w : World}
    (h : Linked catalogue cache pending past w) (hwrites : Writes parts program)
    (hsub : ∀ part ∈ parts, part ∈ [Part.durationTracking, .alarms]) :
    program.wp sem (fun _ => Linked catalogue cache pending) past w :=
  (hwrites.mono hsub).wp _ (fun op _ _ hop hinv => hinv.step op hop) h

variable (repo : AlarmRepo) (ctx : TriggerContext)

-- The mark is pending until its alarm is in the table.
theorem markTriggered_wp (rule : AlarmRule) {past : Past} {w : World}
    (h : Linked catalogue cache (fun _ => False) past w) :
    (InMemoryRuleStateStore.markTriggered rule.id ctx.deviceId rule.throttleMinutes.toInt).wp sem
      (fun _ past w => Linked catalogue cache (· = stateKey rule.id ctx.deviceId) past w ∧
        ∃ marked, w.dedup (stateKey rule.id ctx.deviceId) = some marked ∧
          marked ≤ w.clock) past w := by
  have hnow := h.step .nowUtc (within_of_writes_none rfl)
  simp only [InMemoryRuleStateStore.markTriggered, nowUtc, Prog.bind_eq, Prog.perform_bind,
    Prog.wp_call, Prog.pure_eq, Prog.wp_ret]
  set instant := (sem .nowUtc w).1 with hinstant
  set w' := (sem .nowUtc w).2 with hw'
  have hkey : (sem (.dedupInsert (stateKey rule.id ctx.deviceId) instant) w').2.dedup =
      Function.update w'.dedup (stateKey rule.id ctx.deviceId) (some instant) := by
    simp [sem, Op.exec]
  refine ⟨⟨hnow.1.step _ (by simp [Op.writes]) (by simp [Op.writes]), fun hholds => ?_⟩,
    instant, ?_, ?_⟩
  · intro productId other hother hpos deviceId marked hmark hpending
    rw [hkey, Function.update_of_ne hpending] at hmark
    exact exists_row_step (hnow.2 hholds.tail productId other hother hpos deviceId marked hmark id)
  · rw [hkey, Function.update_self]
  · rw [sem_clock]
    exact w'.clock_le_tick

theorem Linked.insert (rule : AlarmRule) {past : Past} {w : World} {marked : OffsetDateTime}
    (h : Linked catalogue cache (· = stateKey rule.id ctx.deviceId) past w)
    (hmark : w.dedup (stateKey rule.id ctx.deviceId) = some marked) (hle : marked ≤ w.clock)
    {alarm : NewAlarm} (hrule : alarm.ruleId = rule.id) (hdevice : alarm.deviceId = ctx.deviceId) :
    Linked catalogue cache (fun _ => False)
      (⟨.sql (.insertAlarm alarm), (sem (.sql (.insertAlarm alarm)) w).1⟩ :: past)
      (sem (.sql (.insertAlarm alarm)) w).2 := by
  have hstep := h.step (.sql (.insertAlarm alarm)) (within_of_writes rfl (by simp))
  refine ⟨hstep.1, fun hholds productId other hother hpos deviceId instant hinstant _ => ?_⟩
  by_cases hkey : stateKey other.id deviceId = stateKey rule.id ctx.deviceId
  · obtain ⟨hid, rfl⟩ := stateKey_inj.mp hkey
    have hsame : (sem (.sql (.insertAlarm alarm)) w).2.dedup = w.dedup :=
      sem_same .dedup (by simp [Op.writes, Sql.writes]) w
    rw [hsame, hkey, hmark, Option.some.injEq] at hinstant
    subst hinstant
    cases hfault : w.sqlFaults 0 with
    | some error =>
        -- a failed insert of a throttled rule is excluded
        have hbad := hholds alarm error (by simp [sem, Op.exec, hfault]) productId other
          hother (hid.trans hrule.symm)
        omega
    | none =>
        refine ⟨alarm.toRecord w.tables.nextAlarmId w.tick.clock, ?_, ?_, ?_, ?_, ?_⟩
        · simp [sem, Op.exec, hfault, Sql.exec]
        · simp [NewAlarm.toRecord, hrule, hid]
        · simp [NewAlarm.toRecord, hdevice]
        · simp only [NewAlarm.toRecord]
          exact hle.trans w.clock_le_tick
        · simp only [NewAlarm.toRecord, sem_clock]
          exact le_rfl
  · exact hstep.2 hholds productId other hother hpos deviceId instant hinstant hkey

theorem fire_wp {map : Nat} (rule : AlarmRule) {past : Past} {w : World}
    (h : Linked catalogue cache (fun _ => False) past w) :
    (fire repo nowUtc ctx ⟨map, InMemoryRuleStateStore.store⟩ rule).wp sem
      (fun _ => Linked catalogue cache (fun _ => False)) past w := by
  have hfoot := InMemoryRuleStateStore.footprint
  apply Prog.wp_seq (h.wp (writes_nowUtc []) (by simp))
  intro instant past w h
  apply Prog.wp_seq (h.wp (hfoot.checkDedup _ _ _ _) (by simp))
  intro skip past w h
  cases skip with
  | true => exact h
  | false =>
      apply Prog.wp_seq (markTriggered_wp ctx rule h)
      rintro _ past w ⟨h, marked, hmark, hle⟩
      refine Prog.wp_seq (executeActions_wp (Linked catalogue cache fun _ => False)
        (fun op past w hop hinv => hinv.step op (hop.within.mono (by simp))) ?_) fun _ _ _ h => h
      exact h.insert ctx rule hmark hle rfl rfl

theorem evaluateRule_wp {map : Nat} (rule : AlarmRule) {past : Past} {w : World}
    (h : Linked catalogue cache (fun _ => False) past w) :
    (evaluateRule repo nowUtc ctx ⟨map, InMemoryRuleStateStore.store⟩ rule).wp sem
      (fun _ => Linked catalogue cache (fun _ => False)) past w := by
  have hfoot := InMemoryRuleStateStore.footprint
  unfold evaluateRule
  split
  · exact h
  · split_ifs
    · apply Prog.wp_seq (h.wp (writes_sustained ctx hfoot rule) (by simp))
      intro holds past w h
      cases holds with
      | true => exact fire_wp repo ctx rule h
      | false => exact h
    · exact h.wp (writes_resetTracking ctx hfoot rule) (by simp)
    · exact h

theorem linked_inductive (map : Nat) :
    Inductive repo ⟨map, InMemoryRuleStateStore.store⟩ catalogue
      (fun _ => Linked catalogue ⟨map, InMemoryRuleStateStore.store⟩ fun _ => False)
      (fun _ _ _ => Linked catalogue ⟨map, InMemoryRuleStateStore.store⟩ fun _ => False) where
  load := by
    intro _ ctx past w h
    have hload := loadRules_wp
      (fun past w => InsertsHold catalogue past → Justified catalogue (fun _ => False) w)
      (fun op past w hop hinv hholds => (hinv hholds.tail).step fun he => by simpa using hop _ he)
      ctx past h.1 h.2
    apply Prog.wp_mono hload
    rintro loaded past w ⟨hserves, hinv, ⟨hnone, -⟩ | hsome⟩
    · exact .inl ⟨hnone, hserves, hinv⟩
    · exact .inr ⟨hsome, hserves, hinv⟩
  rule := fun _ ctx _ rule _ _ _ _ h => evaluateRule_wp repo ctx rule h
  clear := by
    intro _ ctx past w h
    unfold clearLoop
    split_ifs
    · apply Prog.wp_forEach (fun _ => Linked catalogue _ fun _ => False) _ _ h
      intro _ rule _ _ past w h
      exact h.wp (writes_clearRule ctx InMemoryRuleStateStore.footprint rule) (by simp)
    · exact h

-- In the world `w` the round of `rule` ends at the dedup check, made at `instant`.
structure Suppressed (cache : RuleCache) (ctx : TriggerContext) (rule : AlarmRule) (w : World)
    (instant : OffsetDateTime) : Prop where
  matched : ∃ actual, actualValue ctx rule = some actual ∧
    RuleEvaluator.evaluate rule.condition actual = true
  sustained : ((sustained nowUtc ctx cache rule).run sem w).1 = true
  instant_eq : instant = ((RuleEngine.sustained nowUtc ctx cache rule).final sem w).tick.clock
  skipped : ((cache.stateStore.checkDedup rule.id ctx.deviceId rule.throttleMinutes.toInt
    instant).run sem ((RuleEngine.sustained nowUtc ctx cache rule).final sem w).tick).1 = true

-- A skipped trigger has a recent mark.
theorem mark_of_skipped {ruleId : Int} {deviceId : String} {throttle : Int}
    {instant : OffsetDateTime} {w : World}
    (h : ((InMemoryRuleStateStore.checkDedup ruleId deviceId throttle instant).run sem w).1 =
      true) :
    0 < throttle ∧ ∃ marked, w.dedup (stateKey ruleId deviceId) = some marked ∧
      wholeMinutes (instant - marked) < throttle := by
  unfold InMemoryRuleStateStore.checkDedup at h
  split_ifs at h with hpos
  · simp at h
  · refine ⟨by omega, ?_⟩
    simp only [Prog.bind_eq, Prog.perform_bind, Prog.run_call, sem, Op.exec, World.tick_dedup] at h
    cases hmark : w.dedup (stateKey ruleId deviceId) with
    | none => simp [hmark] at h
    | some marked => exact ⟨marked, rfl, by simpa [hmark] using h⟩

-- In every sequential run in which no insert of an alarm of a throttled rule has
-- failed, a suppression has a recent alarm behind it.
theorem suppressed_has_recent_alarm (map : Nat) (start : World)
    (hserves : Serves ⟨map, InMemoryRuleStateStore.store⟩ catalogue start)
    (hempty : ∀ key, start.dedup key = none) (before : List TriggerContext) (ctx : TriggerContext)
    (done rest : List AlarmRule) (rule : AlarmRule)
    (hrules : catalogue ctx.productId = done ++ rule :: rest)
    (hloaded : ((loadRules ctx ⟨map, InMemoryRuleStateStore.store⟩).run sem
      ((evaluations repo ⟨map, InMemoryRuleStateStore.store⟩ before).final sem start)).1 ≠ none)
    (hinserts : InsertsHold catalogue
      ((upTo repo ⟨map, InMemoryRuleStateStore.store⟩ before ctx done).trace sem start))
    (instant : OffsetDateTime)
    (hsuppressed : Suppressed ⟨map, InMemoryRuleStateStore.store⟩ ctx rule
      ((upTo repo ⟨map, InMemoryRuleStateStore.store⟩ before ctx done).final sem start) instant) :
    ∃ row ∈ ((upTo repo ⟨map, InMemoryRuleStateStore.store⟩ before ctx done).final sem
      start).tables.alarms,
      row.ruleId = rule.id ∧ row.deviceId = ctx.deviceId ∧ row.createdAt ≤ instant ∧
      wholeMinutes (instant - row.createdAt) < rule.throttleMinutes.toInt := by
  have hstart : Linked catalogue ⟨map, InMemoryRuleStateStore.store⟩ (fun _ => False) [] start :=
    ⟨hserves, fun _ _ _ _ _ _ _ hmark => by simp [hempty] at hmark⟩
  have hlinked := (linked_inductive repo map).upTo_wp before ctx done (rule :: rest) hrules
      hstart hloaded
  set w := (upTo repo ⟨map, InMemoryRuleStateStore.store⟩ before ctx done).final sem start
  obtain ⟨hpos, marked, hmark, hrecent⟩ := mark_of_skipped hsuppressed.skipped
  have hwrites : Writes [.durationTracking]
      (sustained nowUtc ctx ⟨map, InMemoryRuleStateStore.store⟩ rule) :=
    writes_sustained ctx InMemoryRuleStateStore.footprint rule
  have hsame := hwrites.same .dedup (by simp) w
  simp only [Part.Same] at hsame
  rw [World.tick_dedup, hsame] at hmark
  obtain ⟨row, hrow, hid, hdevice, hle, hcreated⟩ :=
    hlinked.2 hinserts ctx.productId rule (by simp [hrules]) hpos ctx.deviceId marked hmark id
  have hclock : w.clock ≤ instant := by
    rw [hsuppressed.instant_eq]
    exact (final_clock_le _ w).trans (World.clock_le_tick _)
  refine ⟨row, hrow, hid, hdevice, hcreated.trans hclock, ?_⟩
  exact wholeMinutes_lt_of_le hpos (by lia) hrecent

end InMemory

-- A device comes online twice at the same instant.
theorem suppressed_online_has_recent_alarm :
    ∃ row ∈ ((upTo ⟨3, 60⟩ ⟨0, InMemoryRuleStateStore.store⟩ [online "d"] (online "d") []).final sem
        (World.started onlineTables)).tables.alarms,
      row.ruleId = 1 ∧ row.deviceId = "d" ∧ row.createdAt ≤ 0 ∧
        wholeMinutes (0 - row.createdAt) < 5 := by
  have hserves : Serves ⟨0, InMemoryRuleStateStore.store⟩ (fun productId =>
      enabledRules productId onlineTables.rules) (World.started onlineTables) :=
        ⟨by simp, fun _ => rfl⟩
  refine suppressed_has_recent_alarm ⟨3, 60⟩ 0 (World.started onlineTables) hserves (fun _ => rfl)
    [online "d"] (online "d") []
    [] (onlineRule 1 5) rfl (by decide +kernel) (fun alarm error hmem => ?_) 0
    ⟨⟨.null, rfl, by decide +kernel⟩, by decide +kernel, by decide +kernel, by decide +kernel⟩
  exact absurd hmem (no_sql_error _ (fun _ => rfl) _ _)

-- The first insert fails: the second trigger is suppressed although there is no alarm.
theorem suppressed_without_alarm :
    let start := { World.started onlineTables with
      sqlFaults := fun n => if n = 1 then some "connection reset" else none }
    let w := (upTo ⟨3, 60⟩ ⟨0, InMemoryRuleStateStore.store⟩ [online "d"] (online "d") []).final
        sem start
    Suppressed ⟨0, InMemoryRuleStateStore.store⟩ (online "d") (onlineRule 1 5) w 0 ∧
      w.tables.alarms = [] :=
  ⟨⟨⟨.null, rfl, by decide +kernel⟩, by decide +kernel, by decide +kernel, by decide +kernel⟩,
    by rfl⟩

end RmqttThings.RuleEngine
