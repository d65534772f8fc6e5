import RmqttThings.RuleEngine.RedisFaults

namespace RmqttThings.RuleEngine

open Effects
open RedisRuleStateStore (durationKey)

-- The operation does not set `key`.
def Op.Spares (key : String) (op : Op) : Prop := ∀ text ttlSecs, op ≠ .redisSet key text ttlSecs

theorem spares_of_writes {key : String} {op : Op} (h : op.writes ≠ some .redis) :
    op.Spares key := by
  rintro text ttlSecs rfl
  simp [Op.writes] at h

-- A live entry was live before, unless it has just been set.
theorem sem_redisLookup {op : Op} {w : World} {key text : String}
    (h : (sem op w).2.redisLookup key = some text) :
    w.redisLookup key = some text ∨ ∃ ttlSecs, op = .redisSet key text ttlSecs := by
  obtain ⟨expiry, hlookup, hlive⟩ := redisLookup_eq_some.mp h
  rcases sem_redis_lookup hlookup with hold | ⟨ttlSecs, rfl, -⟩
  · rw [sem_clock] at hlive
    exact .inl (redisLookup_eq_some.mpr ⟨expiry, hold, w.clock_le_tick.trans_lt hlive⟩)
  · exact .inr ⟨ttlSecs, rfl⟩

theorem final_redisLookup {α : Type} {program : M α} {key : String}
    (h : program.Uses (Op.Spares key))
    {w : World} {text : String} (hlive : (program.final sem w).redisLookup key = some text) :
    w.redisLookup key = some text := by
  revert hlive
  refine h.final (fun w' : World => w'.redisLookup key = some text → w.redisLookup key = some text)
    (fun op w' hop hinv hlive => ?_) id
  rcases sem_redisLookup hlive with hold | ⟨ttlSecs, he⟩
  · exact hinv hold
  · exact absurd he (hop text ttlSecs)

section Spares

variable {iso : Iso8601} (repo : AlarmRepo) (ctx : TriggerContext) (map : Nat) (rule : AlarmRule)
  {ruleId : Int} {deviceId : String}

theorem spares_resetTracking (key : String) :
    (resetTracking ctx ⟨map, RedisRuleStateStore.store iso⟩ rule).Uses (Op.Spares key) := by
  refine uses_resetTracking ctx rule
    ((RedisRuleStateStore.ops_resetDuration rule.id ctx.deviceId).mono ?_)
  rintro _ (rfl | rfl) _ _ he <;> cases he

-- Marks live under other keys.
theorem spares_fire :
    (fire repo nowUtc ctx ⟨map, RedisRuleStateStore.store iso⟩ rule).Uses
      (Op.Spares (durationKey ruleId deviceId)) := by
  refine uses_fire repo ctx rule (spares_of_writes (by simp [Op.writes]))
    (fun now => (RedisRuleStateStore.ops_checkDedup iso rule.id ctx.deviceId _ now).mono ?_)
    ((RedisRuleStateStore.ops_markTriggered iso rule.id ctx.deviceId _).mono ?_) fun actions =>
    Prog.Uses.mono (writes_executeActions repo ctx actions rule.id rule.name) ?_
  · rintro _ (rfl | rfl) <;> exact spares_of_writes (by simp [Op.writes])
  · rintro _ (rfl | rfl | ⟨now, text, -, rfl⟩) _ _ he
    · cases he
    · cases he
    · simp only [Op.redisSet.injEq] at he
      exact dedupKey_ne_durationKey _ _ _ _ he.1
  · exact fun op hop => spares_of_writes fun he => by simpa using hop _ he

theorem spares_evaluateRule (hother : ¬(rule.id = ruleId ∧ ctx.deviceId = deviceId)) :
    (evaluateRule repo nowUtc ctx ⟨map, RedisRuleStateStore.store iso⟩ rule).Uses
      (Op.Spares (durationKey ruleId deviceId)) := by
  refine uses_evaluateRule repo ctx rule
    (uses_sustained ctx rule (spares_of_writes (by simp [Op.writes]))
    fun now => (RedisRuleStateStore.ops_checkDuration iso rule.id ctx.deviceId _ now).mono ?_)
    (spares_fire repo ctx map rule) (spares_resetTracking ctx map rule _)
  rintro _ (rfl | rfl | ⟨text, -, rfl⟩) _ _ he
  · cases he
  · cases he
  · simp only [Op.redisSet.injEq] at he
    exact hother (durationKey_inj.mp he.1)

theorem spares_clearRule (key : String) :
    (clearRule ctx ⟨map, RedisRuleStateStore.store iso⟩ rule).Uses (Op.Spares key) :=
  uses_clearRule ctx rule (spares_of_writes (by simp [Op.writes, Sql.writes]))
    (fun _ => spares_of_writes (by simp [Op.writes, Sql.writes]))
      (spares_resetTracking ctx map rule key)

theorem spares_clearLoop (key : String) (rules : List AlarmRule) :
    (clearLoop ⟨map, RedisRuleStateStore.store iso⟩ ctx rules).Uses (Op.Spares key) := by
  unfold clearLoop
  split_ifs
  · exact Prog.Uses.forEach fun rule _ => spares_clearRule ctx map rule key
  · trivial

theorem spares_loadRules (cache : RuleCache) (key : String) :
    (loadRules ctx cache).Uses (Op.Spares key) :=
  Prog.Uses.mono (writes_loadRules ctx cache) fun _ hop => spares_of_writes fun he => by
    simpa using hop _ he

end Spares

section Rule

def Op.insertsAlarm : Op → Bool
  | .sql (.insertAlarm _) => true
  | _ => false

theorem writes_of_insertsAlarm {op : Op} (h : op.insertsAlarm = true) :
    op.writes = some .alarms := by
  unfold Op.insertsAlarm at h
  split at h
  · rfl
  · cases h

-- The round of the rule comes to the insert of an alarm.
def Fires (repo : AlarmRepo) (cache : RuleCache) (ctx : TriggerContext) (rule : AlarmRule)
    (w : World) : Prop :=
  ∃ event ∈ (evaluateRule repo nowUtc ctx cache rule).trace sem w, event.1.insertsAlarm = true

instance (repo : AlarmRepo) (cache : RuleCache) (ctx : TriggerContext) (rule : AlarmRule)
    (w : World) :
    Decidable (Fires repo cache ctx rule w) :=
  inferInstanceAs (Decidable (∃ event ∈ (evaluateRule repo nowUtc ctx cache rule).trace sem w,
    event.1.insertsAlarm = true))

-- A reset that comes next takes effect, or has nothing to take away.
def ResetWorks (key : String) (w : World) : Prop :=
  w.redisLookup key = none ∨ ((∀ error, w.redisFaults 0 ≠ .error error) ∧ w.redisFaults 1 = .none)

variable {iso : Iso8601} {repo : AlarmRepo} {map : Nat} {ctx : TriggerContext} {rule : AlarmRule}
  {w : World}

theorem redisLookup_reset (hworks : ResetWorks (durationKey rule.id ctx.deviceId) w) :
    ((resetTracking ctx ⟨map, RedisRuleStateStore.store iso⟩ rule).final sem w).redisLookup
      (durationKey rule.id ctx.deviceId) = none := by
  rw [Option.eq_none_iff_forall_ne_some]
  intro text hlive
  have hbefore := final_redisLookup (spares_resetTracking ctx map rule _) hlive
  rcases hworks with hnone | ⟨hconnect, hdel⟩
  · simp [hnone] at hbefore
  · have hok : (sem .redisConnect w).1 = .ok () := by
      simp only [sem, Op.exec, World.redisCommand, World.tick_redisFaults]
      split
      · rename_i error he
        exact absurd he (hconnect error)
      · rfl
      · rfl
    obtain ⟨expiry, hlookup, -⟩ := redisLookup_eq_some.mp hlive
    simp only [resetTracking, RedisRuleStateStore.store_resetDuration,
      RedisRuleStateStore.resetDuration,
      RedisRuleStateStore.connect, RedisRuleStateStore.del, Prog.bind_eq, Prog.perform_bind,
        Prog.call_bind,
      Prog.final, Prog.run_call, hok, sem_redisConnect_snd] at hlookup
    simp [sem, Op.exec, World.redisCommand, hdel] at hlookup

theorem checkDuration_redisLookup {ruleId : Int} {deviceId : String} {duration : Int32}
    {now : OffsetDateTime} {key text : String}
    (hlive : ((RedisRuleStateStore.checkDuration iso ruleId deviceId duration now).final sem
      w).redisLookup key = some text) :
    w.redisLookup key = some text ∨ iso.format now = .ok text := by
  revert hlive
  refine (RedisRuleStateStore.ops_checkDuration iso ruleId deviceId duration now).final
    (fun w' : World => w'.redisLookup key = some text →
      w.redisLookup key = some text ∨ iso.format now = .ok text) (fun op w' hop hinv hlive => ?_)
        .inl
  rcases sem_redisLookup hlive with hold | ⟨ttlSecs, he⟩
  · exact hinv hold
  · rcases hop with rfl | rfl | ⟨value, hformat, rfl⟩
    · cases he
    · cases he
    · simp only [Op.redisSet.injEq] at he
      exact .inr (he.2.1 ▸ hformat)

theorem sustained_final {cache : RuleCache} (htracks : tracksDuration ctx rule = true) :
    (sustained nowUtc ctx cache rule).final sem w =
      (cache.stateStore.checkDuration rule.id ctx.deviceId rule.durationMinutes w.tick.clock).final
        sem w.tick := by
  simp only [sustained, htracks, if_true, nowUtc, Prog.bind_eq, Prog.final_bind]
  rfl

theorem sustained_run {cache : RuleCache} (htracks : tracksDuration ctx rule = true) :
    ((sustained nowUtc ctx cache rule).run sem w).1 =
      decide (((cache.stateStore.checkDuration rule.id ctx.deviceId rule.durationMinutes
        w.tick.clock).run sem w.tick).1 = .met) := by
  simp only [sustained, htracks, if_true, nowUtc, Prog.bind_eq, Prog.run_bind]
  rfl

theorem redisLookup_tick {key text : String} (h : w.tick.redisLookup key = some text) :
    w.redisLookup key = some text := by
  obtain ⟨expiry, hlookup, hlive⟩ := redisLookup_eq_some.mp h
  exact redisLookup_eq_some.mpr ⟨expiry, hlookup, w.clock_le_tick.trans_lt hlive⟩

-- What the round of the rule leaves live was live before or is its own start.
theorem evaluateRule_redisLookup (htype : rule.triggerType = "property")
    (hpos : 0 < rule.durationMinutes.toInt)
    (hreset : Fails rule ctx → ResetWorks (durationKey rule.id ctx.deviceId) w) {text : String}
    (hlive : ((evaluateRule repo nowUtc ctx ⟨map, RedisRuleStateStore.store iso⟩ rule).final sem
      w).redisLookup (durationKey rule.id ctx.deviceId) = some text) :
    (w.redisLookup (durationKey rule.id ctx.deviceId) = some text ∧ ¬Fails rule ctx) ∨
      (Satisfies rule ctx ∧ iso.format w.tick.clock = .ok text) := by
  cases hactual : actualValue ctx rule with
  | none =>
      simp only [evaluateRule, hactual] at hlive
      exact .inl ⟨hlive, by simp [Fails, hactual]⟩
  | some actual =>
      have htracks := tracksDuration_of_actualValue htype hpos hactual
      cases hcondition : RuleEvaluator.evaluate rule.condition actual with
      | false =>
          simp only [evaluateRule, hactual, hcondition, htracks, if_true, Bool.false_eq_true,
            if_false] at hlive
          rw [redisLookup_reset (hreset ⟨actual, hactual, hcondition⟩)] at hlive
          cases hlive
      | true =>
          have hfails : ¬Fails rule ctx := by
            simp [Fails, hactual, hcondition]
          simp only [evaluateRule, hactual, hcondition, if_true, Prog.bind_eq,
            Prog.final_bind] at hlive
          have hsustained : ((sustained nowUtc ctx ⟨map, RedisRuleStateStore.store iso⟩ rule).final
              sem w).redisLookup (durationKey rule.id ctx.deviceId) = some text := by
            split_ifs at hlive
            · exact final_redisLookup (spares_fire repo ctx map rule) hlive
            · exact hlive
          rw [sustained_final htracks] at hsustained
          rcases checkDuration_redisLookup hsustained with hold | hformat
          · exact .inl ⟨redisLookup_tick hold, hfails⟩
          · exact .inr ⟨⟨actual, hactual, hcondition⟩, hformat⟩

theorem redisGet_some {key text : String} (h : (sem (.redisGet key) w).1 = .ok (some text)) :
    w.redisFaults 0 = .garbled text ∨ w.redisLookup key = some text := by
  simp only [sem, Op.exec, World.redisCommand, World.tick_redisFaults] at h
  split at h
  · cases h
  · rename_i garbled hfault
    simp only [Except.ok.injEq, Option.some.injEq] at h
    exact .inl (h ▸ hfault)
  · simp only [Except.ok.injEq] at h
    exact .inr (redisLookup_tick h)

-- The check answers `met` only for a live start that is old enough.
theorem checkDuration_met {ruleId : Int} {deviceId : String} {duration : Int32}
    {now : OffsetDateTime} (hpos : 0 < duration.toInt) (hunparsable : Unparsable iso w)
    (hmet : ((RedisRuleStateStore.checkDuration iso ruleId deviceId duration now).run sem w).1 =
      .met) :
    ∃ text started, w.redisLookup (durationKey ruleId deviceId) = some text ∧
      iso.parse text = .ok started ∧ duration.toInt ≤ wholeMinutes (now - started) := by
  simp only [RedisRuleStateStore.checkDuration, if_neg (not_le.mpr hpos),
    RedisRuleStateStore.connect,
    Prog.bind_eq, Prog.perform_bind, Prog.run_call, sem_redisConnect_snd] at hmet
  cases hconnect : (sem .redisConnect w).1 with
  | error error => simp [hconnect] at hmet
  | ok _ =>
      simp only [hconnect, RedisRuleStateStore.get, Prog.perform_bind, Prog.run_call] at hmet
      rcases hget : (sem (.redisGet (durationKey ruleId deviceId)) w.tick.popRedis).1 with
        error | _ | text
      · simp [hget] at hmet
      · -- an absent key only starts the tracking
        simp only [hget] at hmet
        split at hmet
        · simp at hmet
        · simp only [RedisRuleStateStore.setEx, Prog.perform_bind, Prog.run_call] at hmet
          split at hmet <;> simp at hmet
      · simp only [hget] at hmet
        rcases redisGet_some hget with hgarbled | hlive
        · obtain ⟨error, hparse⟩ := hunparsable 1 text hgarbled
          simp [hparse] at hmet
        · cases hparse : iso.parse text with
          | error error => simp [hparse] at hmet
          | ok started =>
              simp only [hparse] at hmet
              split_ifs at hmet with hle
              · exact ⟨text, started, redisLookup_tick hlive, hparse, hle⟩
              · simp at hmet

theorem fires_sustained {cache : RuleCache} (hfires : Fires repo cache ctx rule w)
    {marks tracks : Part} (hfoot : cache.stateStore.Footprint marks tracks)
    (htracks : tracks ≠ .alarms) :
    Satisfies rule ctx ∧ ((sustained nowUtc ctx cache rule).run sem w).1 = true := by
  obtain ⟨event, hmem, hinserts⟩ := hfires
  cases hactual : actualValue ctx rule with
  | none => simp [evaluateRule, hactual] at hmem
  | some actual =>
      cases hcondition : RuleEvaluator.evaluate rule.condition actual with
      | false =>
          simp only [evaluateRule, hactual, hcondition, Bool.false_eq_true, if_false] at hmem
          split_ifs at hmem
          · have hwithin := (writes_resetTracking ctx hfoot rule).trace _ hmem .alarms
                (writes_of_insertsAlarm hinserts)
            exact absurd (List.mem_singleton.mp hwithin).symm htracks
          · simp at hmem
      | true =>
          simp only [evaluateRule, hactual, hcondition, if_true, Prog.bind_eq, Prog.trace_bind,
            List.mem_append] at hmem
          refine ⟨⟨actual, hactual, hcondition⟩, ?_⟩
          rcases hmem with hmem | hmem
          · by_contra hfalse
            simp [hfalse] at hmem
          · have hwithin := (writes_sustained ctx hfoot rule).trace _ hmem .alarms
                (writes_of_insertsAlarm hinserts)
            exact absurd (List.mem_singleton.mp hwithin).symm htracks

end Rule

section Runs

variable (iso : Iso8601) (repo : AlarmRepo) (map : Nat) (before : List TriggerContext)
  (ctx : TriggerContext) (done : List AlarmRule) (start : World)

-- The world in which the rule behind `done` meets the report `ctx`, and the instant
-- at which it is checked.
def arrival : World :=
  (upTo repo ⟨map, RedisRuleStateStore.store iso⟩ before ctx done).final sem start

def checkedAt : OffsetDateTime := (arrival iso repo map before ctx done start).tick.clock

-- Some report of the device before `ctx` satisfied the condition and was checked at
-- `instant`; none since then has failed it.
def HeldSince (rule : AlarmRule) (deviceId : String) (instant : OffsetDateTime) : Prop :=
  ∃ earlier first between, before = earlier ++ first :: between ∧ first.deviceId = deviceId ∧
    Satisfies rule first ∧ checkedAt iso repo map earlier first done start = instant ∧
    ∀ report ∈ between, report.deviceId = deviceId → ¬Fails rule report

-- The live start of a tracked condition is the instant of a report since which the
-- condition has held.
def Tracked (rule : AlarmRule) (deviceId : String) (before : List TriggerContext) (w : World) :
    Prop :=
  ∀ text, w.redisLookup (durationKey rule.id deviceId) = some text →
    ∃ instant, iso.format instant = .ok text ∧ HeldSince iso repo map before done start rule
      deviceId instant

variable {iso repo map before ctx done start} {rule : AlarmRule} {deviceId : String}
  {catalogue : String → List AlarmRule} {rest : List AlarmRule}

theorem HeldSince.extend {instant : OffsetDateTime}
    (h : HeldSince iso repo map before done start rule deviceId instant)
    (hctx : ctx.deviceId = deviceId → ¬Fails rule ctx) :
    HeldSince iso repo map (before ++ [ctx]) done start rule deviceId instant := by
  obtain ⟨earlier, first, between, rfl, hdevice, hsatisfies, hinstant, hbetween⟩ := h
  refine ⟨earlier, first, between ++ [ctx], by simp, hdevice, hsatisfies, hinstant, ?_⟩
  intro report hmem
  rcases List.mem_append.mp hmem with hmem | hmem
  · exact hbetween report hmem
  · rw [List.mem_singleton.mp hmem]
    exact hctx

theorem spares_forEach {rules : List AlarmRule} (hunique : ∀ other ∈ rules, other.id ≠ rule.id) :
    (Prog.forEach rules (evaluateRule repo nowUtc ctx ⟨map, RedisRuleStateStore.store iso⟩)).Uses
      (Op.Spares (durationKey rule.id deviceId)) :=
  Prog.Uses.forEach fun other hmem =>
    spares_evaluateRule repo ctx map other fun he => hunique other hmem he.1

theorem tracked_step (hdone : ∀ other ∈ done, other.id ≠ rule.id)
    (hrest : ∀ other ∈ rest, other.id ≠ rule.id) (htype : rule.triggerType = "property")
    (hpos : 0 < rule.durationMinutes.toInt)
    (hloaded : ((loadRules ctx ⟨map, RedisRuleStateStore.store iso⟩).run sem
      ((evaluations repo ⟨map, RedisRuleStateStore.store iso⟩ before).final sem start)).1 =
        some (done ++ rule :: rest))
    (hreset : ctx.deviceId = deviceId → Fails rule ctx →
      ResetWorks (durationKey rule.id deviceId) (arrival iso repo map before ctx done start))
    (h : Tracked iso repo map done start rule deviceId before
      ((evaluations repo ⟨map, RedisRuleStateStore.store iso⟩ before).final sem start)) :
    Tracked iso repo map done start rule deviceId (before ++ [ctx])
      ((evaluations repo ⟨map, RedisRuleStateStore.store iso⟩ (before ++ [ctx])).final sem
        start) := by
  intro text hlive
  rw [evaluations_snoc, evaluation_final _ hloaded] at hlive
  have hround := final_redisLookup (spares_forEach hrest)
    (final_redisLookup (spares_clearLoop ctx map _ _) hlive)
  rw [← upTo_final] at hround
  have hold : (arrival iso repo map before ctx done start).redisLookup
      (durationKey rule.id deviceId) =
      some text → ∃ instant, iso.format instant = .ok text ∧
        HeldSince iso repo map before done start rule deviceId instant := by
    intro harrival
    rw [arrival, upTo_final] at harrival
    exact h text (final_redisLookup (spares_loadRules ctx _ _)
      (final_redisLookup (spares_forEach hdone) harrival))
  by_cases hdevice : ctx.deviceId = deviceId
  · subst hdevice
    rcases evaluateRule_redisLookup htype hpos (hreset rfl) hround with
      ⟨hlive, hfails⟩ | ⟨hsatisfies, hformat⟩
    · obtain ⟨instant, hformat, hheld⟩ := hold hlive
      exact ⟨instant, hformat, hheld.extend fun _ => hfails⟩
    · exact ⟨_, hformat, before, ctx, [], rfl, rfl, hsatisfies, rfl, by simp⟩
  · have hspares : (evaluateRule repo nowUtc ctx ⟨map, RedisRuleStateStore.store iso⟩ rule).Uses
        (Op.Spares (durationKey rule.id deviceId)) :=
      spares_evaluateRule repo ctx map rule fun he => hdevice he.2
    obtain ⟨instant, hformat, hheld⟩ := hold (final_redisLookup hspares hround)
    exact ⟨instant, hformat, hheld.extend fun he => absurd he hdevice⟩

theorem unparsable_arrival (hunparsable : Unparsable iso start) :
    Unparsable iso (arrival iso repo map before ctx done start) :=
  (upTo repo ⟨map, RedisRuleStateStore.store iso⟩ before ctx done).uses_true.final
    _ (fun _ _ _ h => h.step) hunparsable

section Reachable

variable (hserves : Serves ⟨map, RedisRuleStateStore.store iso⟩ catalogue start)
  (hsql : ∀ n, start.sqlFaults n = none) (hunparsable : Unparsable iso start)
  (hempty : ∀ key, start.redis.lookup key = none)
include hserves hsql hunparsable hempty

variable (repo) in
theorem remembered_evaluations (before : List TriggerContext) :
    Serves ⟨map, RedisRuleStateStore.store iso⟩ catalogue
        ((evaluations repo ⟨map, RedisRuleStateStore.store iso⟩ before).final sem start) ∧
      Remembered iso ((evaluations repo ⟨map, RedisRuleStateStore.store iso⟩ before).trace
        sem start)
        ((evaluations repo ⟨map, RedisRuleStateStore.store iso⟩ before).final sem start) := by
  have hstart : Serves ⟨map, RedisRuleStateStore.store iso⟩ catalogue start ∧
      Remembered iso [] start :=
    ⟨hserves, hsql, hunparsable, fun key _ _ h => by simp [hempty] at h⟩
  have hwp := (remembered_inductive iso catalogue repo map).evaluations_wp before hstart
  simpa using (Prog.wp_iff _ _ _).mp hwp

-- The run lemma, by induction over the reports.
theorem tracked_evaluations {productId : String}
    (hrules : catalogue productId = done ++ rule :: rest)
    (hunique : ((catalogue productId).map (·.id)).Nodup) (htype : rule.triggerType = "property")
    (hpos : 0 < rule.durationMinutes.toInt) (before : List TriggerContext)
    (hproduct : ∀ report ∈ before, report.productId = productId)
    (hresets : ∀ earlier report later, before = earlier ++ report :: later → report.deviceId =
      deviceId → Fails rule report → ResetWorks (durationKey rule.id deviceId)
        (arrival iso repo map earlier report done start)) :
    Tracked iso repo map done start rule deviceId before
      ((evaluations repo ⟨map, RedisRuleStateStore.store iso⟩ before).final sem start) := by
  obtain ⟨hdone, hrest⟩ := ids_ne_of_nodup hrules hunique
  induction before using List.reverseRecOn with
  | nil =>
      intro text hlive
      obtain ⟨expiry, hlookup, -⟩ := redisLookup_eq_some.mp hlive
      have hnone := hempty (durationKey rule.id deviceId)
      simp [evaluations, Prog.forEach, hnone] at hlookup
  | append_singleton before ctx ih =>
      obtain ⟨hserved, hremembered⟩ :=
        remembered_evaluations repo hserves hsql hunparsable hempty before
      have hloaded := loadRules_run ctx hserved hremembered.sqlUp
      rw [hproduct ctx (by simp), hrules] at hloaded
      refine tracked_step hdone hrest htype hpos hloaded
        (fun hdevice hfails => hresets before ctx [] rfl hdevice hfails) (ih ?_ ?_)
      · exact fun report hmem => hproduct report (by simp [hmem])
      · exact fun earlier report later he => hresets earlier report (later ++ [ctx]) (by simp [he])

-- In every run in which the resets of the failing reports work, a rule with a
-- duration fires only after its condition has held for that long.
theorem fires_only_after_duration (hiso : iso.Faithful) {productId : String}
    (hrules : catalogue productId = done ++ rule :: rest)
    (hunique : ((catalogue productId).map (·.id)).Nodup) (htype : rule.triggerType = "property")
    (hpos : 0 < rule.durationMinutes.toInt) (before : List TriggerContext) (ctx : TriggerContext)
    (hproduct : ∀ report ∈ before, report.productId = productId)
    (hresets : ∀ earlier report later, before = earlier ++ report :: later →
      report.deviceId = ctx.deviceId → Fails rule report →
      ResetWorks (durationKey rule.id ctx.deviceId)
        (arrival iso repo map earlier report done start))
    (hfires : Fires repo ⟨map, RedisRuleStateStore.store iso⟩ ctx rule
      (arrival iso repo map before ctx done start)) :
    Satisfies rule ctx ∧ ∃ instant, HeldSince iso repo map before done start rule ctx.deviceId
      instant ∧ rule.durationMinutes.toInt ≤
        wholeMinutes (checkedAt iso repo map before ctx done start - instant) := by
  obtain ⟨hsatisfies, hsustained⟩ :=
    fires_sustained hfires (RedisRuleStateStore.footprint iso) (by simp)
  refine ⟨hsatisfies, ?_⟩
  obtain ⟨actual, hactual, -⟩ := hsatisfies
  rw [sustained_run (tracksDuration_of_actualValue htype hpos hactual),
    decide_eq_true_eq] at hsustained
  obtain ⟨text, started, hlive, hparse, hle⟩ := checkDuration_met
    (w := (arrival iso repo map before ctx done start).tick) hpos (unparsable_arrival hunparsable)
      hsustained
  have harrival := redisLookup_tick hlive
  rw [arrival, upTo_final] at harrival
  obtain ⟨hdone, -⟩ := ids_ne_of_nodup hrules hunique
  obtain ⟨instant, hformat, hheld⟩ :=
    tracked_evaluations hserves hsql hunparsable hempty hrules hunique htype
    hpos before hproduct hresets text (final_redisLookup (spares_loadRules ctx _ _)
      (final_redisLookup (spares_forEach hdone) harrival))
  have hstarted : started = instant := by
    have := hiso instant text hformat
    rw [hparse] at this
    simpa using this
  exact ⟨instant, hheld, hstarted ▸ hle⟩

end Reachable

end Runs

def hotTables : Tables := { Tables.empty with rules := [hotRule 1 0 1 none] }

theorem not_fails_sixty : ¬Fails (hotRule 1 0 1 none) (temperature "d" 60) := by
  rintro ⟨actual, hactual, hcondition⟩
  cases hactual
  exact absurd hcondition (by decide +kernel)

-- Two hot reports, one minute apart.
theorem hot_fires_after_one_minute :
    let start := { World.started hotTables with
        delays := fun n => if n = 7 then 60000000000 else 0 }
    Satisfies (hotRule 1 0 1 none) (temperature "d" 60) ∧
      ∃ instant, HeldSince firstMinutes ⟨3, 60⟩ 0 [temperature "d" 60] [] start (hotRule 1 0 1 none)
        "d" instant ∧ 1 ≤ wholeMinutes
          (checkedAt firstMinutes ⟨3, 60⟩ 0 [temperature "d" 60] (temperature "d" 60)
            [] start - instant) := by
  intro start
  have hserves : Serves ⟨0, RedisRuleStateStore.store firstMinutes⟩ (fun productId =>
      enabledRules productId hotTables.rules) start := ⟨by simp [start], fun _ => rfl⟩
  have hrules : enabledRules "p" hotTables.rules = [] ++ hotRule 1 0 1 none :: [] := rfl
  refine fires_only_after_duration hserves (fun _ => rfl) (fun n text h => by cases h)
    (fun _ => rfl) firstMinutes_faithful hrules (by decide +kernel) rfl (by decide +kernel)
    [temperature "d" 60] (temperature "d" 60) (by simp [temperature]) ?_ (by decide +kernel)
  intro earlier report later he _ hfails
  have hreport : report = temperature "d" 60 :=
    List.mem_singleton.mp (he ▸ List.mem_append_right earlier List.mem_cons_self)
  exact absurd (hreport ▸ hfails) not_fails_sixty

-- A cool report between them, whose reset is lost: the rule fires all the same.
theorem hot_fires_after_lost_reset :
    let start := { World.started hotTables with
      delays := fun n => if n = 7 then 60000000000 else 0
      redisFaults := fun n => if n = 4 then .error "broken pipe" else .none }
    let reports := [temperature "d" 60, temperature "d" 40]
    Fires ⟨3, 60⟩ ⟨0, RedisRuleStateStore.store firstMinutes⟩ (temperature "d" 60)
      (hotRule 1 0 1 none)
        (arrival firstMinutes ⟨3, 60⟩ 0 reports (temperature "d" 60) [] start) ∧
      ¬∃ instant, HeldSince firstMinutes ⟨3, 60⟩ 0 reports [] start (hotRule 1 0 1 none) "d"
        instant ∧ 1 ≤ wholeMinutes
          (checkedAt firstMinutes ⟨3, 60⟩ 0 reports (temperature "d" 60) [] start - instant) := by
  refine ⟨by decide +kernel, ?_⟩
  rintro ⟨instant, ⟨earlier, first, between, he, -, hsatisfies, -, hbetween⟩, -⟩
  have hcool : Fails (hotRule 1 0 1 none) (temperature "d" 40) :=
    ⟨.number (.posInt 40), rfl, by decide +kernel⟩
  rcases earlier with _ | ⟨hot, _ | ⟨cool, earlier⟩⟩
  · simp only [List.nil_append, List.cons.injEq] at he
    exact hbetween (temperature "d" 40) (by simp [← he.2]) rfl hcool
  · simp only [List.cons_append, List.nil_append, List.cons.injEq] at he
    obtain ⟨actual, hactual, hcondition⟩ := hsatisfies
    obtain ⟨cool, hcool, hfalse⟩ := hcool
    rw [he.2.1, hactual, Option.some.injEq] at hcool
    simp [hcool, hfalse] at hcondition
  · simp at he

end RmqttThings.RuleEngine
