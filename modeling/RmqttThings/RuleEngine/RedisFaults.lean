import RmqttThings.RuleEngine.Runs
import RmqttThings.RuleEngine.AlarmTable
import RmqttThings.RuleEngine.Keys

namespace RmqttThings.RuleEngine

open Effects
open RedisRuleStateStore (dedupKey)

variable (iso : Iso8601)

-- Every value that is stored in Redis is a formatted instant.
def Op.Formats (op : Op) : Prop :=
  ∀ key text ttlSecs, op = .redisSet key text ttlSecs → ∃ instant, iso.format instant = .ok text

-- A faulty value is no timestamp.
def Unparsable (w : World) : Prop :=
  ∀ n text, w.redisFaults n = .garbled text → ∃ error, iso.parse text = .error error

variable {iso}

theorem formats_of_writes {op : Op} (h : op.writes ≠ some .redis) : op.Formats iso := by
  rintro key text ttlSecs rfl
  simp [Op.writes] at h

theorem formats_redisSet {key text : String} {ttlSecs : Int} {instant : OffsetDateTime}
    (h : iso.format instant = .ok text) : (Op.redisSet key text ttlSecs).Formats iso := by
  rintro _ _ _ ⟨⟩
  exact ⟨instant, h⟩

section Engine

variable (repo : AlarmRepo) (ctx : TriggerContext) (map : Nat) (rule : AlarmRule)

theorem formats_resetTracking :
    (resetTracking ctx ⟨map, RedisRuleStateStore.store iso⟩ rule).Uses (Op.Formats iso) := by
  refine uses_resetTracking ctx rule
    ((RedisRuleStateStore.ops_resetDuration rule.id ctx.deviceId).mono ?_)
  rintro _ (rfl | rfl) _ _ _ he <;> cases he

theorem formats_evaluateRule :
    (evaluateRule repo nowUtc ctx ⟨map, RedisRuleStateStore.store iso⟩ rule).Uses
      (Op.Formats iso) := by
  have hnow : Op.nowUtc.Formats iso := formats_of_writes (by simp [Op.writes])
  apply uses_evaluateRule
  · refine uses_sustained ctx rule hnow fun now =>
      (RedisRuleStateStore.ops_checkDuration iso rule.id ctx.deviceId _ now).mono ?_
    rintro _ (rfl | rfl | ⟨text, hformat, rfl⟩)
    · exact formats_of_writes (by simp [Op.writes])
    · exact formats_of_writes (by simp [Op.writes])
    · exact formats_redisSet hformat
  · refine uses_fire repo ctx rule hnow
      (fun now => (RedisRuleStateStore.ops_checkDedup iso rule.id ctx.deviceId _ now).mono ?_)
      ((RedisRuleStateStore.ops_markTriggered iso rule.id ctx.deviceId _).mono ?_) fun actions =>
      Prog.Uses.mono (writes_executeActions repo ctx actions rule.id rule.name) ?_
    · rintro _ (rfl | rfl) <;> exact formats_of_writes (by simp [Op.writes])
    · rintro _ (rfl | rfl | ⟨now, text, hformat, rfl⟩)
      · exact formats_of_writes (by simp [Op.writes])
      · exact hnow
      · exact formats_redisSet hformat
    · exact fun op hop => formats_of_writes fun he => by simpa using hop _ he
  · exact formats_resetTracking ctx map rule

theorem formats_clearRule :
    (clearRule ctx ⟨map, RedisRuleStateStore.store iso⟩ rule).Uses (Op.Formats iso) :=
  uses_clearRule ctx rule (formats_of_writes (by simp [Op.writes, Sql.writes]))
    (fun _ => formats_of_writes (by simp [Op.writes, Sql.writes]))
      (formats_resetTracking ctx map rule)

end Engine

variable (iso) in
-- The database is up, and every value in Redis goes back to a successful SET of a
-- formatted instant.
structure Remembered (past : Past) (w : World) : Prop where
  sqlUp : ∀ n, w.sqlFaults n = none
  unparsable : Unparsable iso w
  stored : ∀ key text expiry, w.redis.lookup key = some (text, expiry) →
    ∃ instant ttlSecs, iso.format instant = .ok text ∧
      (⟨.redisSet key text ttlSecs, .ok ()⟩ : Event Op.Ans) ∈ past

theorem Unparsable.step {op : Op} {w : World} (h : Unparsable iso w) :
    Unparsable iso (sem op w).2 := by
  intro n text hgarbled
  rcases sem_redisFaults op w with he | he
  · exact h n text (he ▸ hgarbled)
  · rw [he] at hgarbled
    exact h (n + 1) text hgarbled

theorem Remembered.step {past : Past} {w : World} (h : Remembered iso past w) (op : Op)
    (hop : op.Formats iso) : Remembered iso (⟨op, (sem op w).1⟩ :: past) (sem op w).2 := by
  refine ⟨sqlUp_step h.sqlUp, h.unparsable.step, fun key text expiry hlookup => ?_⟩
  rcases sem_redis_lookup hlookup with hold | ⟨ttlSecs, rfl, hnone, -⟩
  · obtain ⟨instant, ttlSecs, hformat, hmem⟩ := h.stored key text expiry hold
    exact ⟨instant, ttlSecs, hformat, List.mem_cons_of_mem _ hmem⟩
  · obtain ⟨instant, hformat⟩ := hop key text ttlSecs rfl
    refine ⟨instant, ttlSecs, hformat, List.mem_cons.mpr (.inl ?_)⟩
    simp [sem, Op.exec, World.redisCommand, hnone]

section Lookup

-- The connection and the GET that come next succeed.
def LookupSucceeds (w : World) : Prop :=
  (∀ error, w.redisFaults 0 ≠ .error error) ∧ w.redisFaults 1 = .none

-- An earlier mark of the rule and device, recorded in `past`, still suppresses at
-- `instant`.
def InWindow (iso : Iso8601) (ctx : TriggerContext) (rule : AlarmRule) (past : Past)
    (instant : OffsetDateTime) :
    Prop :=
  ∃ marked text ttlSecs, iso.format marked = .ok text ∧
    (⟨.redisSet (dedupKey rule.id ctx.deviceId) text ttlSecs, .ok ()⟩ : Event Op.Ans) ∈ past ∧
    wholeMinutes (instant - marked) < rule.throttleMinutes.toInt

theorem sem_redisConnect_snd (w : World) : (sem .redisConnect w).2 = w.tick.popRedis := by
  simp only [sem, Op.exec, World.redisCommand]
  split <;> rfl

-- The part of the check behind the connection.
theorem checkDedup_get (hiso : iso.Faithful) {ctx : TriggerContext} {rule : AlarmRule} {past : Past}
    {w : World} (h : Remembered iso past w) {instant : OffsetDateTime}
    (hwindow : ¬InWindow iso ctx rule past instant) :
    ((do
      match ← RedisRuleStateStore.get (dedupKey rule.id ctx.deviceId) with
      | .error _ => return true
      | .ok none => return false
      | .ok (some text) =>
          match iso.parse text with
          | .error _ => return true
          | .ok lastTriggered =>
              return decide (wholeMinutes (instant - lastTriggered) < rule.throttleMinutes.toInt) :
                M Bool).run
        sem w.tick.popRedis).1 = false ↔ w.redisFaults 1 = .none := by
  simp only [RedisRuleStateStore.get, Prog.bind_eq, Prog.perform_bind, Prog.run_call, sem, Op.exec,
    World.redisCommand, World.tick_redisFaults, World.popRedis_redisFaults]
  cases hfault : w.redisFaults 1 with
  | error error => simp
  | garbled text =>
      obtain ⟨error, hparse⟩ := h.unparsable 1 text hfault
      simp [hparse]
  | none =>
      simp only [iff_true]
      cases hfound : (w.tick.popRedis.tick.popRedis.redisLookup (dedupKey rule.id ctx.deviceId))
        with
      | none => rfl
      | some text =>
          obtain ⟨expiry, hlookup, -⟩ := redisLookup_eq_some.mp hfound
          obtain ⟨marked, ttlSecs, hformat, hmem⟩ := h.stored _ text expiry hlookup
          simp only [hiso marked text hformat, Prog.pure_eq, Prog.run_ret, decide_eq_false_iff_not]
          exact fun hlt => hwindow ⟨marked, text, ttlSecs, hformat, hmem, hlt⟩

-- Outside of a window, the answer `false` (no skip) means that the lookup worked.
theorem checkDedup_eq_false_iff (hiso : iso.Faithful) {ctx : TriggerContext} {rule : AlarmRule}
    {past : Past} {w : World} (h : Remembered iso past w) {instant : OffsetDateTime}
    (hwindow : ¬InWindow iso ctx rule past instant) :
    ((RedisRuleStateStore.checkDedup iso rule.id ctx.deviceId rule.throttleMinutes.toInt
      instant).run sem
        w).1 = false ↔
      rule.throttleMinutes.toInt ≤ 0 ∨ LookupSucceeds w := by
  unfold RedisRuleStateStore.checkDedup
  split_ifs with hpos
  · simp [hpos]
  · simp only [hpos, false_or, RedisRuleStateStore.connect, Prog.bind_eq, Prog.perform_bind,
      Prog.run_call]
    by_cases herror : ∃ error, w.redisFaults 0 = .error error
    · obtain ⟨error, herror⟩ := herror
      have hconnect : (sem .redisConnect w).1 = .error error := by
        simp [sem, Op.exec, World.redisCommand, herror]
      rw [hconnect]
      simp [LookupSucceeds, herror]
    · have hconnect : (sem .redisConnect w).1 = .ok () := by
        simp only [sem, Op.exec, World.redisCommand, World.tick_redisFaults]
        split
        · rename_i error he
          exact absurd ⟨error, he⟩ herror
        · rfl
        · rfl
      rw [hconnect, sem_redisConnect_snd]
      simp only [LookupSucceeds, not_exists.mp herror, ne_eq, not_false_eq_true, implies_true,
        true_and]
      exact checkDedup_get hiso h hwindow

end Lookup

section Runs

variable {catalogue : String → List AlarmRule} (repo : AlarmRepo) (map : Nat)

variable (iso catalogue) in
theorem remembered_inductive :
    Inductive repo ⟨map, RedisRuleStateStore.store iso⟩ catalogue
      (fun _ past w => Serves ⟨map, RedisRuleStateStore.store iso⟩ catalogue w ∧
        Remembered iso past w)
      (fun _ _ _ past w => Serves ⟨map, RedisRuleStateStore.store iso⟩ catalogue w ∧
        Remembered iso past w) where
  load := by
    intro _ ctx past w h
    have hload := loadRules_wp (Remembered iso)
      (fun op past w hop hinv => hinv.step op (formats_of_writes fun he => by simpa using hop _ he))
        ctx past h.1 h.2
    apply Prog.wp_mono hload
    rintro loaded past w ⟨hserves, hinv, ⟨hnone, -⟩ | hsome⟩
    · exact .inl ⟨hnone, hserves, hinv⟩
    · exact .inr ⟨hsome, hserves, hinv⟩
  rule := by
    intro _ ctx _ rule _ past w _ h
    have hwrites : Writes [.redis, .redis, .alarms] (evaluateRule repo nowUtc ctx
        ⟨map, RedisRuleStateStore.store iso⟩ rule) := writes_evaluateRule repo ctx
          (RedisRuleStateStore.footprint iso) rule
    have huses := hwrites.and (formats_evaluateRule repo ctx map rule)
    refine huses.wp _ (fun op past w hop hinv => ⟨hinv.1.step op (fun he => ?_) fun he => ?_,
      hinv.2.step op hop.2⟩) h
    all_goals simpa using hop.1 _ he
  clear := by
    intro _ ctx past w h
    unfold clearLoop
    split_ifs
    · apply Prog.wp_forEach (fun _ past w =>
        Serves ⟨map, RedisRuleStateStore.store iso⟩ catalogue w ∧ Remembered iso past w) _ _ h
      intro _ rule _ _ past w h
      have hwrites : Writes [.redis, .alarms]
          (clearRule ctx ⟨map, RedisRuleStateStore.store iso⟩ rule) :=
        writes_clearRule ctx (RedisRuleStateStore.footprint iso) rule
      have huses := hwrites.and (formats_clearRule ctx map rule)
      refine huses.wp _ (fun op past w hop hinv => ⟨hinv.1.step op (fun he => ?_) fun he => ?_,
        hinv.2.step op hop.2⟩) h
      all_goals simpa using hop.1 _ he
    · exact h

-- Without a duration, a rule whose condition is true goes straight to the dedup check.
theorem evaluateRule_eq_fire {cache : RuleCache} {ctx : TriggerContext} {rule : AlarmRule}
    {actual : Json} (hactual : actualValue ctx rule = some actual)
    (hcondition : RuleEvaluator.evaluate rule.condition actual = true)
    (hduration : tracksDuration ctx rule = false) :
    evaluateRule repo nowUtc ctx cache rule = fire repo nowUtc ctx cache rule := by
  simp only [evaluateRule, hactual, hcondition, if_true, sustained, hduration, Bool.false_eq_true,
    if_false]
  rfl

-- In every run, outside of a dedup window, the alarm is created exactly when the
-- rule is not throttled or its dedup lookup works: a failed lookup loses it.
theorem alarm_created_iff_lookup_succeeds (hiso : iso.Faithful) (start : World)
    (hserves : Serves ⟨map, RedisRuleStateStore.store iso⟩ catalogue start)
    (hsql : ∀ n, start.sqlFaults n = none) (hunparsable : Unparsable iso start)
    (hempty : ∀ key, start.redis.lookup key = none) (before : List TriggerContext)
    (ctx : TriggerContext) (done rest : List AlarmRule) (rule : AlarmRule)
    (hrules : catalogue ctx.productId = done ++ rule :: rest) (actual : Json)
    (hactual : actualValue ctx rule = some actual)
    (hcondition : RuleEvaluator.evaluate rule.condition actual = true)
    (hduration : tracksDuration ctx rule = false) (w : World)
    (hw : w = (upTo repo ⟨map, RedisRuleStateStore.store iso⟩ before ctx done).final sem start)
    (hwindow : ¬InWindow iso ctx rule
      ((upTo repo ⟨map, RedisRuleStateStore.store iso⟩ before ctx done).trace sem start)
        w.tick.clock) :
    Creates ctx rule w
        ((evaluateRule repo nowUtc ctx ⟨map, RedisRuleStateStore.store iso⟩ rule).final sem w) ↔
      rule.throttleMinutes.toInt ≤ 0 ∨ LookupSucceeds w := by
  have hstart : Serves ⟨map, RedisRuleStateStore.store iso⟩ catalogue start ∧
      Remembered iso [] start :=
    ⟨hserves, hsql, hunparsable, fun key _ _ h => by simp [hempty] at h⟩
  have hinductive := remembered_inductive iso catalogue repo map
  have hbefore := (Prog.wp_iff _ _ _).mp (hinductive.evaluations_wp before hstart)
  have hloaded := loadRules_run ctx hbefore.1 hbefore.2.sqlUp
  have harrived := hinductive.upTo_wp before ctx done (rule :: rest) hrules hstart
      (by simp [hloaded])
  rw [← hw] at harrived
  have hnow := harrived.2.step .nowUtc (formats_of_writes (by simp [Op.writes]))
  rw [evaluateRule_eq_fire repo hactual hcondition hduration,
    fire_creates_iff repo (RedisRuleStateStore.footprint iso) (by simp) harrived.2.sqlUp]
  refine checkDedup_eq_false_iff hiso hnow ?_
  rintro ⟨marked, text, ttlSecs, hformat, hmem, hlt⟩
  refine hwindow ⟨marked, text, ttlSecs, hformat, ?_, hlt⟩
  simpa using hmem

end Runs

theorem not_inWindow_of_no_set {ctx : TriggerContext} {rule : AlarmRule} {past : Past}
    {instant : OffsetDateTime}
    (h : ∀ event ∈ past, event.1.writes ≠ some .redis) : ¬InWindow iso ctx rule past instant := by
  rintro ⟨marked, text, ttlSecs, -, hmem, -⟩
  exact h _ hmem rfl

-- With Redis up, the first report of a device creates its alarm.
theorem alarm_created_when_redis_up :
    let w := (upTo ⟨3, 60⟩ ⟨0, RedisRuleStateStore.store firstMinutes⟩ [] (online "d") []).final sem
      (World.started onlineTables)
    Creates (online "d") (onlineRule 1 5) w
      ((evaluateRule ⟨3, 60⟩ nowUtc (online "d") ⟨0, RedisRuleStateStore.store firstMinutes⟩
        (onlineRule 1 5)).final sem w) := by
  intro w
  have hserves : Serves ⟨0, RedisRuleStateStore.store firstMinutes⟩ (fun productId =>
      enabledRules productId onlineTables.rules) (World.started onlineTables) :=
        ⟨by simp, fun _ => rfl⟩
  refine (alarm_created_iff_lookup_succeeds ⟨3, 60⟩ 0 firstMinutes_faithful
    (World.started onlineTables)
    hserves (fun _ => rfl) (fun n text h => by cases h) (fun _ => rfl) [] (online "d") [] []
    (onlineRule 1 5) rfl .null rfl (by decide +kernel) rfl _ rfl
    (not_inWindow_of_no_set (by decide +kernel))).mpr (.inr ⟨fun error h => ?_, rfl⟩)
  cases h

-- With the connection of the dedup lookup refused, it does not.
theorem alarm_lost_when_lookup_fails :
    let start := { World.started onlineTables with
      redisFaults := fun n => if n = 0 then .error "connection refused" else .none }
    let arrival := upTo ⟨3, 60⟩ ⟨0, RedisRuleStateStore.store firstMinutes⟩ [] (online "d") []
    let w := arrival.final sem start
    tracksDuration (online "d") (onlineRule 1 5) = false ∧
      (∃ actual, actualValue (online "d") (onlineRule 1 5) = some actual ∧
        RuleEvaluator.evaluate (onlineRule 1 5).condition actual = true) ∧
      ¬InWindow firstMinutes (online "d") (onlineRule 1 5) (arrival.trace sem start) w.tick.clock ∧
      ¬Creates (online "d") (onlineRule 1 5) w
        ((evaluateRule ⟨3, 60⟩ nowUtc (online "d") ⟨0, RedisRuleStateStore.store firstMinutes⟩
          (onlineRule 1 5)).final sem w) := by
  refine ⟨rfl, ⟨.null, rfl, by decide +kernel⟩, not_inWindow_of_no_set (by decide +kernel), ?_⟩
  rintro ⟨hnext, -⟩
  exact absurd hnext (by decide +kernel)

end RmqttThings.RuleEngine
