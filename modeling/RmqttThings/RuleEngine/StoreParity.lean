import RmqttThings.RuleEngine.InMemoryRuns
import RmqttThings.RuleEngine.Keys
import Mathlib.Tactic.Ring

namespace RmqttThings.RuleEngine

open Effects

-- No time passes inside a call, and every Redis command succeeds.
structure World.Undisturbed (w : World) : Prop where
  still : w.Still
  redisUp : ∀ n, w.redisFaults n = .none

namespace World.Undisturbed

variable {w : World} (h : w.Undisturbed)
include h

theorem popRedis : w.popRedis = w := by
  have hf : (fun n => w.redisFaults (n + 1)) = w.redisFaults := by
    funext n
    rw [h.redisUp, h.redisUp]
  simp only [World.popRedis, hf]

theorem run_connect : RedisRuleStateStore.connect.run sem w = (.ok (), w) := by
  simp only [RedisRuleStateStore.connect, Prog.run_perform, h.still.sem_eq, Op.exec,
    World.redisCommand, h.redisUp, h.popRedis]

theorem run_get (key : String) :
    (RedisRuleStateStore.get key).run sem w = (.ok (w.redisLookup key), w) := by
  simp only [RedisRuleStateStore.get, Prog.run_perform, h.still.sem_eq, Op.exec, World.redisCommand,
    h.redisUp, h.popRedis]

theorem run_setEx (key value : String) (ttlSecs : Int) :
    (RedisRuleStateStore.setEx key value ttlSecs).run sem w =
      (.ok (), w.withRedis (w.redis.insert key (value, w.clock + ttlSecs * nanosPerSecond))) := by
  simp only [RedisRuleStateStore.setEx, Prog.run_perform, h.still.sem_eq, Op.exec,
    World.redisCommand, h.redisUp, h.popRedis]

theorem run_del (key : String) :
    (RedisRuleStateStore.del [key]).run sem w = (.ok (), w.withRedis (w.redis.erase key)) := by
  simp only [RedisRuleStateStore.del, Prog.run_perform, h.still.sem_eq, Op.exec, World.redisCommand,
    h.redisUp, h.popRedis, List.foldl_cons, List.foldl_nil]

end World.Undisturbed

theorem undisturbed_started (tables : Tables) : (World.started tables).Undisturbed :=
  ⟨fun _ => rfl, fun _ => rfl⟩

-- Calls of a state store, each made at its own instant.
def answers {α : Type} : List (OffsetDateTime × M α) → World → List α
  | [], _ => []
  | (now, call) :: calls, w =>
      (call.run sem (w.arrive now)).1 :: answers calls (call.final sem (w.arrive now))

theorem redisLookup_eq_none {w : World} {key : String} (h : w.redis.lookup key = none) :
    w.redisLookup key = none := by
  simp only [World.redisLookup, h]

theorem redisLookup_eq {w : World} {key text : String} {expiry : OffsetDateTime}
    (h : w.redis.lookup key = some (text, expiry)) :
    w.redisLookup key = if w.clock < expiry then some text else none := by
  simp only [World.redisLookup, h]

section Duration

open InMemoryRuleStateStore (stateKey)
open RedisRuleStateStore (durationKey durationTtl)

inductive DurationCall where
  | check (ruleId : Int) (deviceId : String)
  | reset (ruleId : Int) (deviceId : String)

-- Only a check has an answer to compare.
def DurationCall.on (store : RuleStateStore) (durations : Int → Int32) (now : OffsetDateTime) :
    DurationCall → M (Option DurationCheckResult)
  | .check ruleId deviceId => do
      let result ← store.checkDuration ruleId deviceId (durations ruleId) now
      return some result
  | .reset ruleId deviceId => do
      let _ ← store.resetDuration ruleId deviceId
      return none

def durationAnswers (store : RuleStateStore) (durations : Int → Int32)
    (calls : List (OffsetDateTime × DurationCall)) (w : World) :
    List (Option DurationCheckResult) :=
  answers (calls.map fun call => (call.1, call.2.on store durations call.1)) w

variable (durations : Int → Int32)

-- Until the next reset, every check of the rule and device comes less than three
-- times the duration after `started`.
def ChecksWithin (ruleId : Int) (deviceId : String) (started : OffsetDateTime) :
    List (OffsetDateTime × DurationCall) → Prop
  | [] => True
  | (now, .check id device) :: calls =>
      (id = ruleId ∧ device = deviceId →
        now - started < 3 * (durations ruleId).toInt * nanosPerMinute) ∧
      ChecksWithin ruleId deviceId started calls
  | (_, .reset id device) :: calls =>
      (id = ruleId ∧ device = deviceId) ∨ ChecksWithin ruleId deviceId started calls

-- No two checks of a rule and device with no reset between them are as far apart
-- as the TTL of the Redis key.
def CheckedWithinTtl : List (OffsetDateTime × DurationCall) → Prop
  | [] => True
  | (now, .check ruleId deviceId) :: calls =>
      (0 < (durations ruleId).toInt → ChecksWithin durations ruleId deviceId now calls) ∧
      CheckedWithinTtl calls
  | (_, .reset _ _) :: calls => CheckedWithinTtl calls

theorem ChecksWithin.later {ruleId : Int} {deviceId : String} {started later : OffsetDateTime}
    (hle : started ≤ later) {calls : List (OffsetDateTime × DurationCall)}
    (h : ChecksWithin durations ruleId deviceId started calls) :
    ChecksWithin durations ruleId deviceId later calls := by
  induction calls with
  | nil => trivial
  | cons call calls ih =>
      obtain ⟨now, call⟩ := call
      cases call with
      | check id device =>
          refine ⟨fun he => ?_, ih h.2⟩
          have hlt := h.1 he
          lia
      | reset id device => exact h.imp_right ih

theorem durationTtl_eq {duration : Int32} (h : 0 < duration.toInt) :
    durationTtl duration * nanosPerSecond = 3 * duration.toInt * nanosPerMinute := by
  have hhigh := duration.toInt_lt
  have hinner : wrapI64 (duration.toInt * 3) = duration.toInt * 3 :=
    wrapI64_eq ⟨by omega, by omega⟩
  have houter : wrapI64 (duration.toInt * 3 * 60) = duration.toInt * 3 * 60 :=
    wrapI64_eq ⟨by omega, by omega⟩
  simp only [durationTtl, hinner, houter, nanosPerMinute]
  rw [max_eq_left (by omega)]
  ring

section Runs

variable {w : World} (h : w.Undisturbed) (ruleId : Int) (deviceId : String) (now : OffsetDateTime)
include h

variable {iso : Iso8601}

theorem run_redis_check_none {duration : Int32} (hpos : 0 < duration.toInt)
    (hnone : w.redisLookup (durationKey ruleId deviceId) = none) {text : String}
    (hformat : iso.format now = .ok text) :
    (RedisRuleStateStore.checkDuration iso ruleId deviceId duration now).run sem w =
      (.justStarted, w.withRedis (w.redis.insert (durationKey ruleId deviceId)
        (text, w.clock + durationTtl duration * nanosPerSecond))) := by
  simp only [RedisRuleStateStore.checkDuration, if_neg (not_le.mpr hpos), Prog.bind_eq,
    Prog.run_bind,
    h.run_connect, h.run_get, hnone, hformat, h.run_setEx, Prog.pure_eq, Prog.run_ret]

theorem run_redis_check_some {duration : Int32} (hpos : 0 < duration.toInt) {text : String}
    (hsome : w.redisLookup (durationKey ruleId deviceId) = some text) {started : OffsetDateTime}
    (hparse : iso.parse text = .ok started) :
    (RedisRuleStateStore.checkDuration iso ruleId deviceId duration now).run sem w =
      (if wholeMinutes (now - started) ≥ duration.toInt then .met else .notYetMet, w) := by
  simp only [RedisRuleStateStore.checkDuration, if_neg (not_le.mpr hpos), Prog.bind_eq,
    Prog.run_bind, h.run_connect, h.run_get, hsome, hparse, Prog.pure_eq]
  split_ifs <;> rfl

theorem run_redis_reset :
    (RedisRuleStateStore.resetDuration ruleId deviceId).run sem w =
      (.ok (), w.withRedis (w.redis.erase (durationKey ruleId deviceId))) := by
  simp only [RedisRuleStateStore.resetDuration, Prog.bind_eq, Prog.run_bind, h.run_connect,
    h.run_del, Prog.pure_eq, Prog.run_ret]

end Runs

-- The Redis key of a tracked condition holds its start and lives for the TTL.
structure DurationMirror (iso : Iso8601) (mem red : World) : Prop where
  memCalm : mem.Undisturbed
  redCalm : red.Undisturbed
  absent : ∀ ruleId deviceId, mem.durationTracking (stateKey ruleId deviceId) = none →
    red.redis.lookup (durationKey ruleId deviceId) = none
  present : ∀ ruleId deviceId started,
    mem.durationTracking (stateKey ruleId deviceId) = some started →
    0 < (durations ruleId).toInt ∧ ∃ text, iso.parse text = .ok started ∧
      red.redis.lookup (durationKey ruleId deviceId) =
        some (text, started + 3 * (durations ruleId).toInt * nanosPerMinute)

namespace DurationMirror

variable {durations} {iso : Iso8601} {mem red : World} (h : DurationMirror durations iso mem red)
include h

theorem arrive (now : OffsetDateTime) :
    DurationMirror durations iso (mem.arrive now) (red.arrive now) where
  memCalm := ⟨h.memCalm.still, h.memCalm.redisUp⟩
  redCalm := ⟨h.redCalm.still, h.redCalm.redisUp⟩
  absent := h.absent
  present := h.present

theorem start (ruleId : Int) (deviceId : String) {started : OffsetDateTime} {text : String}
    (hpos : 0 < (durations ruleId).toInt) (hparse : iso.parse text = .ok started) :
    DurationMirror durations iso
      (mem.withDurationTracking
        (Function.update mem.durationTracking (stateKey ruleId deviceId) (some started)))
      (red.withRedis (red.redis.insert (durationKey ruleId deviceId)
        (text, started + 3 * (durations ruleId).toInt * nanosPerMinute))) where
  memCalm := ⟨h.memCalm.still, h.memCalm.redisUp⟩
  redCalm := ⟨h.redCalm.still, h.redCalm.redisUp⟩
  absent := by
    intro id device hnone
    by_cases he : id = ruleId ∧ device = deviceId
    · simp [he] at hnone
    · simp only [World.withDurationTracking_durationTracking,
        Function.update_of_ne (mt stateKey_inj.mp he)] at hnone
      rw [World.withRedis_redis, AList.lookup_insert_ne (mt durationKey_inj.mp he)]
      exact h.absent id device hnone
  present := by
    intro id device t hsome
    by_cases he : id = ruleId ∧ device = deviceId
    · obtain ⟨rfl, rfl⟩ := he
      simp only [World.withDurationTracking_durationTracking, Function.update_self,
        Option.some.injEq] at hsome
      subst hsome
      exact ⟨hpos, text, hparse, AList.lookup_insert _⟩
    · simp only [World.withDurationTracking_durationTracking,
        Function.update_of_ne (mt stateKey_inj.mp he)] at hsome
      simp only [World.withRedis_redis, AList.lookup_insert_ne (mt durationKey_inj.mp he)]
      exact h.present id device t hsome

theorem reset (ruleId : Int) (deviceId : String) :
    DurationMirror durations iso
      (mem.withDurationTracking (Function.update mem.durationTracking (stateKey ruleId deviceId)
        none))
      (red.withRedis (red.redis.erase (durationKey ruleId deviceId))) where
  memCalm := ⟨h.memCalm.still, h.memCalm.redisUp⟩
  redCalm := ⟨h.redCalm.still, h.redCalm.redisUp⟩
  absent := by
    intro id device hnone
    by_cases he : id = ruleId ∧ device = deviceId
    · obtain ⟨rfl, rfl⟩ := he
      exact AList.lookup_erase _ _
    · simp only [World.withDurationTracking_durationTracking,
        Function.update_of_ne (mt stateKey_inj.mp he)] at hnone
      rw [World.withRedis_redis, AList.lookup_erase_ne (mt durationKey_inj.mp he)]
      exact h.absent id device hnone
  present := by
    intro id device t hsome
    by_cases he : id = ruleId ∧ device = deviceId
    · simp [he] at hsome
    · simp only [World.withDurationTracking_durationTracking,
        Function.update_of_ne (mt stateKey_inj.mp he)] at hsome
      simp only [World.withRedis_redis, AList.lookup_erase_ne (mt durationKey_inj.mp he)]
      exact h.present id device t hsome

end DurationMirror

-- The calls keep within the TTL, also counted from the conditions that are
-- already tracked.
def InTime (tracking : String → Option OffsetDateTime)
    (calls : List (OffsetDateTime × DurationCall)) :
    Prop :=
  CheckedWithinTtl durations calls ∧ ∀ ruleId deviceId started,
    tracking (stateKey ruleId deviceId) = some started →
    ChecksWithin durations ruleId deviceId started calls

section InTime

variable {durations} {tracking : String → Option OffsetDateTime} {ruleId : Int} {deviceId : String}
  {now : OffsetDateTime} {calls : List (OffsetDateTime × DurationCall)}

theorem inTime_reset :
    InTime durations tracking ((now, .reset ruleId deviceId) :: calls) ↔
      InTime durations (Function.update tracking (stateKey ruleId deviceId) none) calls := by
  refine and_congr_right fun _ => forall₂_congr fun id device => forall_congr' fun started => ?_
  by_cases he : id = ruleId ∧ device = deviceId
  · simp [he, ChecksWithin]
  · have hne : ¬(ruleId = id ∧ deviceId = device) := fun h' => he ⟨h'.1.symm, h'.2.symm⟩
    simp [Function.update_of_ne (mt stateKey_inj.mp he), ChecksWithin, hne]

theorem inTime_check_none (hpos : 0 < (durations ruleId).toInt)
    (hnone : tracking (stateKey ruleId deviceId) = none) :
    InTime durations tracking ((now, .check ruleId deviceId) :: calls) ↔
      InTime durations (Function.update tracking (stateKey ruleId deviceId) (some now)) calls := by
  simp only [InTime, CheckedWithinTtl, ChecksWithin]
  constructor
  · rintro ⟨⟨hfresh, hwithin⟩, htracked⟩
    refine ⟨hwithin, fun id device started hsome => ?_⟩
    by_cases he : id = ruleId ∧ device = deviceId
    · obtain ⟨rfl, rfl⟩ := he
      simp only [Function.update_self, Option.some.injEq] at hsome
      exact hsome ▸ hfresh hpos
    · rw [Function.update_of_ne (mt stateKey_inj.mp he)] at hsome
      exact (htracked id device started hsome).2
  · rintro ⟨hwithin, htracked⟩
    refine ⟨⟨fun _ => htracked ruleId deviceId now (by simp), hwithin⟩, ?_⟩
    intro id device started hsome
    have he : ¬(id = ruleId ∧ device = deviceId) := by
      rintro ⟨rfl, rfl⟩
      simp [hnone] at hsome
    refine ⟨fun h' => absurd ⟨h'.1.symm, h'.2.symm⟩ he, htracked id device started ?_⟩
    rwa [Function.update_of_ne (mt stateKey_inj.mp he)]

theorem inTime_check_some {started : OffsetDateTime} (hle : started ≤ now)
    (hsome : tracking (stateKey ruleId deviceId) = some started) :
    InTime durations tracking ((now, .check ruleId deviceId) :: calls) ↔
      now - started < 3 * (durations ruleId).toInt * nanosPerMinute ∧
        InTime durations tracking calls := by
  simp only [InTime, CheckedWithinTtl, ChecksWithin]
  constructor
  · rintro ⟨⟨-, hwithin⟩, htracked⟩
    exact ⟨(htracked ruleId deviceId started hsome).1 ⟨rfl, rfl⟩, hwithin,
      fun id device other h' => (htracked id device other h').2⟩
  · rintro ⟨hlive, hwithin, htracked⟩
    refine ⟨⟨fun _ => (htracked ruleId deviceId started hsome).later durations hle, hwithin⟩,
      fun id device other h' => ⟨?_, htracked id device other h'⟩⟩
    rintro ⟨rfl, rfl⟩
    rw [hsome, Option.some.injEq] at h'
    exact h' ▸ hlive

theorem inTime_check_untracked (hpos : ¬0 < (durations ruleId).toInt)
    (hnone : tracking (stateKey ruleId deviceId) = none) :
    InTime durations tracking ((now, .check ruleId deviceId) :: calls) ↔
      InTime durations tracking calls := by
  simp only [InTime, CheckedWithinTtl, ChecksWithin]
  constructor
  · rintro ⟨⟨-, hwithin⟩, htracked⟩
    exact ⟨hwithin, fun id device started hsome => (htracked id device started hsome).2⟩
  · rintro ⟨hwithin, htracked⟩
    refine ⟨⟨fun h' => absurd h' hpos, hwithin⟩, fun id device started hsome =>
      ⟨?_, htracked id device started hsome⟩⟩
    rintro ⟨rfl, rfl⟩
    simp [hnone] at hsome

end InTime

theorem durationAnswers_cons (store : RuleStateStore) (now : OffsetDateTime) (call : DurationCall)
    (calls : List (OffsetDateTime × DurationCall)) (w : World) :
    durationAnswers store durations ((now, call) :: calls) w =
      ((call.on store durations now).run sem (w.arrive now)).1 ::
        durationAnswers store durations calls ((call.on store durations now).run sem
          (w.arrive now)).2 := rfl

-- The tracked conditions have started before the calls.
def StartedBefore (tracking : String → Option OffsetDateTime)
    (calls : List (OffsetDateTime × DurationCall)) : Prop :=
  ∀ ruleId deviceId started, tracking (stateKey ruleId deviceId) = some started → ∀ call ∈ calls,
    started ≤ call.1

section Started

variable {tracking : String → Option OffsetDateTime} {call : OffsetDateTime × DurationCall}
  {calls : List (OffsetDateTime × DurationCall)}

theorem StartedBefore.tail (h : StartedBefore tracking (call :: calls)) :
    StartedBefore tracking calls :=
  fun ruleId deviceId started hsome other hmem => h ruleId deviceId started hsome other
    (List.mem_cons_of_mem _ hmem)

theorem StartedBefore.reset (h : StartedBefore tracking calls) (ruleId : Int) (deviceId : String) :
    StartedBefore (Function.update tracking (stateKey ruleId deviceId) none) calls := by
  intro id device started hsome
  by_cases he : id = ruleId ∧ device = deviceId
  · simp [he] at hsome
  · rw [Function.update_of_ne (mt stateKey_inj.mp he)] at hsome
    exact h id device started hsome

theorem StartedBefore.start (h : StartedBefore tracking calls) (ruleId : Int) (deviceId : String)
    {now : OffsetDateTime} (hnow : ∀ call ∈ calls, now ≤ call.1) :
    StartedBefore (Function.update tracking (stateKey ruleId deviceId) (some now)) calls := by
  intro id device started hsome
  by_cases he : id = ruleId ∧ device = deviceId
  · simp only [he, Function.update_self, Option.some.injEq] at hsome
    exact hsome ▸ hnow
  · rw [Function.update_of_ne (mt stateKey_inj.mp he)] at hsome
    exact h id device started hsome

end Started

-- By the time its key expires a duration is met.
theorem met_of_expired {duration elapsed : Int} (hpos : 0 < duration)
    (hexpired : ¬ elapsed < 3 * duration * nanosPerMinute) : wholeMinutes elapsed ≥ duration := by
  refine (le_wholeMinutes_iff hpos _).mpr ?_
  simp only [nanosPerMinute, nanosPerSecond] at hexpired ⊢
  lia

-- The two stores part at the first check that finds its key expired: the in-memory
-- store answers `met`, the other starts over.
theorem durationAnswers_eq_iff {iso : Iso8601} (calls : List (OffsetDateTime × DurationCall))
    (hsorted : calls.Pairwise fun first second => first.1 ≤ second.1)
    (hround : ∀ call ∈ calls, iso.RoundTrips call.1) {mem red : World}
    (h : DurationMirror durations iso mem red)
    (hpast : StartedBefore mem.durationTracking calls) :
    durationAnswers InMemoryRuleStateStore.store durations calls mem =
        durationAnswers (RedisRuleStateStore.store iso) durations calls red ↔
      InTime durations mem.durationTracking calls := by
  induction calls generalizing mem red with
  | nil => simp [durationAnswers, answers, InTime, CheckedWithinTtl, ChecksWithin]
  | cons call calls ih =>
      obtain ⟨now, call⟩ := call
      rw [List.pairwise_cons] at hsorted
      have hrest := fun other hmem => hround other (List.mem_cons_of_mem _ hmem)
      have hkept := hpast.tail
      have hnow := h.arrive now
      rw [durationAnswers_cons, durationAnswers_cons]
      cases call with
      | reset ruleId deviceId =>
          simp only [DurationCall.on, InMemoryRuleStateStore.store_resetDuration,
            RedisRuleStateStore.store_resetDuration, Prog.bind_eq, Prog.run_bind,
            run_inMemory_reset hnow.memCalm.still, run_redis_reset hnow.redCalm, Prog.pure_eq,
              Prog.run_ret,
            List.cons.injEq, true_and]
          rw [ih hsorted.2 hrest (hnow.reset ruleId deviceId) (hkept.reset ruleId deviceId),
            inTime_reset]
          rfl
      | check ruleId deviceId =>
          obtain ⟨text, hformat, hparse⟩ := hround (now, .check ruleId deviceId) (by simp)
          simp only [DurationCall.on, InMemoryRuleStateStore.store_checkDuration,
            RedisRuleStateStore.store_checkDuration, Prog.bind_eq, Prog.run_bind, Prog.pure_eq,
            Prog.run_ret, List.cons.injEq, Option.some.injEq]
          by_cases hpos : 0 < (durations ruleId).toInt
          · cases hstart : mem.durationTracking (stateKey ruleId deviceId) with
            | none =>
                have hred := redisLookup_eq_none (hnow.absent ruleId deviceId hstart)
                rw [run_inMemory_check_none hnow.memCalm.still ruleId deviceId now hpos hstart,
                  run_redis_check_none hnow.redCalm ruleId deviceId now hpos hred hformat,
                  World.arrive_clock, durationTtl_eq hpos,
                  ih hsorted.2 hrest (hnow.start ruleId deviceId hpos hparse)
                    (hkept.start ruleId deviceId hsorted.1), inTime_check_none hpos hstart]
                simp
            | some started =>
                obtain ⟨-, stored, hstored, hlookup⟩ := hnow.present ruleId deviceId started hstart
                have hred := redisLookup_eq hlookup
                rw [run_inMemory_check_some hnow.memCalm.still ruleId deviceId now hpos hstart,
                  inTime_check_some (hpast ruleId deviceId started hstart _ List.mem_cons_self)
                    hstart]
                by_cases hlive : now - started < 3 * (durations ruleId).toInt * nanosPerMinute
                · rw [if_pos (by simp; lia)] at hred
                  rw [run_redis_check_some hnow.redCalm ruleId deviceId now hpos hred hstored,
                    ih hsorted.2 hrest hnow hkept]
                  simp [hlive]
                · rw [if_neg (by simp; lia)] at hred
                  rw [run_redis_check_none hnow.redCalm ruleId deviceId now hpos hred hformat]
                  have hmet := met_of_expired hpos hlive
                  simp [hmet, hlive]
          · have hmet := not_lt.mp hpos
            have hnone : mem.durationTracking (stateKey ruleId deviceId) = none := by
              rw [Option.eq_none_iff_forall_ne_some]
              exact fun started hsome => hpos (h.present ruleId deviceId started hsome).1
            rw [InMemoryRuleStateStore.checkDuration, RedisRuleStateStore.checkDuration,
              if_pos hmet,
              if_pos hmet, Prog.pure_eq, Prog.run_ret, Prog.run_ret, ih hsorted.2 hrest hnow hkept,
              inTime_check_untracked hpos hnone]
            simp

-- Started empty, the two stores answer alike exactly as long as no tracked
-- condition is checked again after the TTL that was set at its start.
theorem durationAnswers_eq_iff_checkedWithinTtl (iso : Iso8601) (w : World) (hcalm : w.Undisturbed)
    (hmem : ∀ key, w.durationTracking key = none) (hred : ∀ key, w.redis.lookup key = none)
    (calls : List (OffsetDateTime × DurationCall))
    (hsorted : calls.Pairwise fun first second => first.1 ≤ second.1)
    (hround : ∀ call ∈ calls, iso.RoundTrips call.1) :
    durationAnswers InMemoryRuleStateStore.store durations calls w =
        durationAnswers (RedisRuleStateStore.store iso) durations calls w ↔
      CheckedWithinTtl durations calls := by
  have hmirror : DurationMirror durations iso w w :=
    ⟨hcalm, hcalm, fun _ _ _ => hred _, fun _ _ _ h => by simp [hmem] at h⟩
  rw [durationAnswers_eq_iff durations calls hsorted hround hmirror
    (fun _ _ _ h => by simp [hmem] at h)]
  simp [InTime, hmem]

-- With a duration of one minute, a second check after two minutes is in time …
theorem durationAnswers_eq_after_two_minutes :
    CheckedWithinTtl (fun _ => 1) [(0, .check 7 "d"), (2 * nanosPerMinute, .check 7 "d")] ∧
      durationAnswers InMemoryRuleStateStore.store (fun _ => 1)
          [(0, .check 7 "d"), (2 * nanosPerMinute, .check 7 "d")] (World.started Tables.empty) =
        durationAnswers (RedisRuleStateStore.store firstMinutes) (fun _ => 1)
          [(0, .check 7 "d"), (2 * nanosPerMinute, .check 7 "d")] (World.started Tables.empty) := by
  have hwithin : CheckedWithinTtl (fun _ => 1) [(0, .check 7 "d"),
      (2 * nanosPerMinute, .check 7 "d")] := by
    simp [CheckedWithinTtl, ChecksWithin, nanosPerMinute, nanosPerSecond]
  have hround : ∀ call ∈ [((0 : OffsetDateTime), DurationCall.check 7 "d"),
      (2 * nanosPerMinute, DurationCall.check 7 "d")], firstMinutes.RoundTrips call.1 := by
    simp only [List.mem_cons, List.not_mem_nil, or_false, forall_eq_or_imp, forall_eq]
    exact ⟨⟨"1970-01-01T00:00:00.000000000Z", rfl, rfl⟩,
      ⟨"1970-01-01T00:02:00.000000000Z", rfl, rfl⟩⟩
  refine ⟨hwithin, (durationAnswers_eq_iff_checkedWithinTtl (fun _ => 1) firstMinutes
    (World.started Tables.empty) (undisturbed_started _) (fun _ => rfl) (fun _ => rfl) _ ?_
      hround).mpr
    hwithin⟩
  simp [nanosPerMinute, nanosPerSecond]

-- … and one after three minutes, the TTL, is not: the alarm that is due in memory
-- is put off in Redis.
theorem durationAnswers_differ_after_three_minutes :
    firstMinutes.RoundTrips 0 ∧ firstMinutes.RoundTrips (3 * nanosPerMinute) ∧
      durationAnswers InMemoryRuleStateStore.store (fun _ => 1)
        [(0, .check 7 "d"), (3 * nanosPerMinute, .check 7 "d")] (World.started Tables.empty) =
          [some .justStarted, some .met] ∧
      durationAnswers (RedisRuleStateStore.store firstMinutes) (fun _ => 1)
        [(0, .check 7 "d"), (3 * nanosPerMinute, .check 7 "d")] (World.started Tables.empty) =
          [some .justStarted, some .justStarted] :=
  ⟨⟨"1970-01-01T00:00:00.000000000Z", rfl, rfl⟩, ⟨"1970-01-01T00:03:00.000000000Z", rfl, rfl⟩,
    by decide +kernel, by decide +kernel⟩

end Duration

section Dedup

open InMemoryRuleStateStore (stateKey)
open RedisRuleStateStore (dedupKey dedupTtl dedupTtl_eq fitsI64_ttl)

inductive DedupCall where
  | mark (ruleId : Int) (deviceId : String)
  | check (ruleId : Int) (deviceId : String)

-- The caller widens the throttle of the rule to `i64`.
def DedupCall.on (store : RuleStateStore) (throttles : Int → Int32) (now : OffsetDateTime) :
    DedupCall → M (Option Bool)
  | .mark ruleId deviceId => do
      let _ ← store.markTriggered ruleId deviceId (throttles ruleId).toInt
      return none
  | .check ruleId deviceId => do
      let skip ← store.checkDedup ruleId deviceId (throttles ruleId).toInt now
      return some skip

def dedupAnswers (store : RuleStateStore) (throttles : Int → Int32)
    (calls : List (OffsetDateTime × DedupCall)) (w : World) : List (Option Bool) :=
  answers (calls.map fun call => (call.1, call.2.on store throttles call.1)) w

-- A mark that suppresses has not expired.
theorem lt_expiry_of_suppressed {throttle : Int32} (hpos : 0 < throttle.toInt)
    {now marked : OffsetDateTime} (h : wholeMinutes (now - marked) < throttle.toInt) :
    now < marked + dedupTtl throttle.toInt * nanosPerSecond := by
  have hlt := (wholeMinutes_lt_iff hpos _).mp h
  rw [dedupTtl_eq, max_eq_left (by omega)]
  simp only [nanosPerMinute, nanosPerSecond] at hlt ⊢
  lia

section Runs

variable {w : World} (h : w.Undisturbed) (ruleId : Int) (deviceId : String) (now : OffsetDateTime)
include h

variable {iso : Iso8601}

theorem run_redis_dedup_none {throttle : Int} (hpos : 0 < throttle)
    (hnone : w.redisLookup (dedupKey ruleId deviceId) = none) :
    (RedisRuleStateStore.checkDedup iso ruleId deviceId throttle now).run sem w = (false, w) := by
  simp only [RedisRuleStateStore.checkDedup, if_neg (not_le.mpr hpos), Prog.bind_eq, Prog.run_bind,
    h.run_connect, h.run_get, hnone, Prog.pure_eq, Prog.run_ret]

theorem run_redis_dedup_some {throttle : Int} (hpos : 0 < throttle) {text : String}
    (hsome : w.redisLookup (dedupKey ruleId deviceId) = some text) {marked : OffsetDateTime}
    (hparse : iso.parse text = .ok marked) :
    (RedisRuleStateStore.checkDedup iso ruleId deviceId throttle now).run sem w =
      (decide (wholeMinutes (now - marked) < throttle), w) := by
  simp only [RedisRuleStateStore.checkDedup, if_neg (not_le.mpr hpos), Prog.bind_eq, Prog.run_bind,
    h.run_connect, h.run_get, hsome, hparse, Prog.pure_eq, Prog.run_ret]

theorem run_redis_mark (throttle : Int) {text : String} (hformat : iso.format w.clock = .ok text) :
    (RedisRuleStateStore.markTriggered iso ruleId deviceId throttle).run sem w =
      (.ok (), w.withRedis (w.redis.insert (dedupKey ruleId deviceId)
        (text, w.clock + dedupTtl throttle * nanosPerSecond))) := by
  simp only [RedisRuleStateStore.markTriggered, Prog.bind_eq, Prog.run_bind, h.run_connect,
    run_nowUtc h.still, hformat, h.run_setEx, Prog.pure_eq, Prog.run_ret]

end Runs

-- The Redis key of a mark holds its instant and lives for the TTL.
structure DedupMirror (throttles : Int → Int32) (iso : Iso8601) (mem red : World) : Prop where
  memCalm : mem.Undisturbed
  redCalm : red.Undisturbed
  absent : ∀ ruleId deviceId, mem.dedup (stateKey ruleId deviceId) = none →
    red.redis.lookup (dedupKey ruleId deviceId) = none
  present : ∀ ruleId deviceId marked, mem.dedup (stateKey ruleId deviceId) = some marked →
    ∃ text, iso.parse text = .ok marked ∧ red.redis.lookup (dedupKey ruleId deviceId) =
      some (text, marked + dedupTtl (throttles ruleId).toInt * nanosPerSecond)

namespace DedupMirror

variable {throttles : Int → Int32} {iso : Iso8601} {mem red : World}
  (h : DedupMirror throttles iso mem red)
include h

theorem arrive (now : OffsetDateTime) :
    DedupMirror throttles iso (mem.arrive now) (red.arrive now) where
  memCalm := ⟨h.memCalm.still, h.memCalm.redisUp⟩
  redCalm := ⟨h.redCalm.still, h.redCalm.redisUp⟩
  absent := h.absent
  present := h.present

theorem mark (ruleId : Int) (deviceId : String) {marked : OffsetDateTime} {text : String}
    (hparse : iso.parse text = .ok marked) :
    DedupMirror throttles iso
      (mem.withDedup (Function.update mem.dedup (stateKey ruleId deviceId) (some marked)))
      (red.withRedis (red.redis.insert (dedupKey ruleId deviceId)
        (text, marked + dedupTtl (throttles ruleId).toInt * nanosPerSecond))) where
  memCalm := ⟨h.memCalm.still, h.memCalm.redisUp⟩
  redCalm := ⟨h.redCalm.still, h.redCalm.redisUp⟩
  absent := by
    intro id device hnone
    by_cases he : id = ruleId ∧ device = deviceId
    · simp [he] at hnone
    · simp only [World.withDedup_dedup, Function.update_of_ne (mt stateKey_inj.mp he)] at hnone
      rw [World.withRedis_redis, AList.lookup_insert_ne (mt dedupKey_inj.mp he)]
      exact h.absent id device hnone
  present := by
    intro id device t hsome
    by_cases he : id = ruleId ∧ device = deviceId
    · obtain ⟨rfl, rfl⟩ := he
      simp only [World.withDedup_dedup, Function.update_self, Option.some.injEq] at hsome
      subst hsome
      exact ⟨text, hparse, AList.lookup_insert _⟩
    · simp only [World.withDedup_dedup, Function.update_of_ne (mt stateKey_inj.mp he)] at hsome
      simp only [World.withRedis_redis, AList.lookup_insert_ne (mt dedupKey_inj.mp he)]
      exact h.present id device t hsome

-- An expired mark is too old to suppress, so its absence answers the same.
theorem check (ruleId : Int) (deviceId : String) :
    ((RedisRuleStateStore.checkDedup iso ruleId deviceId (throttles ruleId).toInt red.clock).run
      sem red) =
      (((InMemoryRuleStateStore.checkDedup ruleId deviceId (throttles ruleId).toInt red.clock).run
        sem mem).1, red) := by
  by_cases hpos : 0 < (throttles ruleId).toInt
  · rw [run_inMemory_dedup h.memCalm.still ruleId deviceId _ hpos]
    cases hmark : mem.dedup (stateKey ruleId deviceId) with
    | none =>
        exact run_redis_dedup_none h.redCalm _ _ _ hpos (redisLookup_eq_none (h.absent _ _ hmark))
    | some marked =>
        obtain ⟨text, hparse, hlookup⟩ := h.present ruleId deviceId marked hmark
        have hred := redisLookup_eq hlookup
        by_cases hlive : red.clock < marked + dedupTtl (throttles ruleId).toInt * nanosPerSecond
        · rw [if_pos hlive] at hred
          exact run_redis_dedup_some h.redCalm _ _ _ hpos hred hparse
        · rw [if_neg hlive] at hred
          rw [run_redis_dedup_none h.redCalm _ _ _ hpos hred]
          have hold := mt (lt_expiry_of_suppressed hpos) hlive
          simp [hold]
  · rw [InMemoryRuleStateStore.checkDedup, RedisRuleStateStore.checkDedup, if_pos (not_lt.mp hpos),
      if_pos (not_lt.mp hpos)]
    rfl

theorem final_check (ruleId : Int) (deviceId : String) (now : OffsetDateTime) :
    ((InMemoryRuleStateStore.checkDedup ruleId deviceId (throttles ruleId).toInt now).run
      sem mem).2 =
      mem := by
  by_cases hpos : 0 < (throttles ruleId).toInt
  · rw [run_inMemory_dedup h.memCalm.still ruleId deviceId _ hpos]
  · rw [InMemoryRuleStateStore.checkDedup, if_pos (not_lt.mp hpos)]
    rfl

end DedupMirror

theorem dedupAnswers_cons (throttles : Int → Int32) (store : RuleStateStore) (now : OffsetDateTime)
    (call : DedupCall) (calls : List (OffsetDateTime × DedupCall)) (w : World) :
    dedupAnswers store throttles ((now, call) :: calls) w =
      ((call.on store throttles now).run sem (w.arrive now)).1 ::
        dedupAnswers store throttles calls ((call.on store throttles now).run sem
          (w.arrive now)).2 := rfl

theorem dedupAnswers_eq {throttles : Int → Int32} {iso : Iso8601}
    (calls : List (OffsetDateTime × DedupCall)) (hround : ∀ call ∈ calls, iso.RoundTrips call.1)
    {mem red : World} (h : DedupMirror throttles iso mem red) :
    dedupAnswers InMemoryRuleStateStore.store throttles calls mem =
      dedupAnswers (RedisRuleStateStore.store iso) throttles calls red := by
  induction calls generalizing mem red with
  | nil => rfl
  | cons call calls ih =>
      obtain ⟨now, call⟩ := call
      have hrest := fun other hmem => hround other (List.mem_cons_of_mem _ hmem)
      have hnow := h.arrive now
      rw [dedupAnswers_cons, dedupAnswers_cons]
      cases call with
      | mark ruleId deviceId =>
          obtain ⟨text, hformat, hparse⟩ := hround (now, .mark ruleId deviceId) (by simp)
          simp only [DedupCall.on, InMemoryRuleStateStore.store_markTriggered,
            RedisRuleStateStore.store_markTriggered, Prog.bind_eq, Prog.run_bind,
            run_inMemory_mark hnow.memCalm.still, run_redis_mark hnow.redCalm _ _ _ hformat,
            Prog.pure_eq, Prog.run_ret, List.cons.injEq, true_and]
          exact ih hrest (hnow.mark ruleId deviceId hparse)
      | check ruleId deviceId =>
          have hcheck := hnow.check ruleId deviceId
          rw [World.arrive_clock] at hcheck
          simp only [DedupCall.on, InMemoryRuleStateStore.store_checkDedup,
            RedisRuleStateStore.store_checkDedup, Prog.bind_eq, Prog.run_bind, Prog.pure_eq,
            Prog.run_ret, hcheck, hnow.final_check, List.cons.injEq, true_and]
          exact ih hrest hnow

-- Started empty, the two stores give the same answers: the TTL is computed without
-- overflow and outlives every window in which a mark suppresses.
theorem dedupAnswers_inMemory_eq_redis (iso : Iso8601) (throttles : Int → Int32) (w : World)
    (hcalm : w.Undisturbed) (hmem : ∀ key, w.dedup key = none)
    (hred : ∀ key, w.redis.lookup key = none)
    (calls : List (OffsetDateTime × DedupCall)) (hround : ∀ call ∈ calls, iso.RoundTrips call.1) :
    dedupAnswers InMemoryRuleStateStore.store throttles calls w =
        dedupAnswers (RedisRuleStateStore.store iso) throttles calls w ∧
      ∀ ruleId, FitsI64 ((throttles ruleId).toInt * 2) ∧
        FitsI64 ((throttles ruleId).toInt * 2 * 60) ∧
        dedupTtl (throttles ruleId).toInt = max (120 * (throttles ruleId).toInt) 60 ∧
        ∀ marked now, 0 < (throttles ruleId).toInt →
          wholeMinutes (now - marked) < (throttles ruleId).toInt →
          now < marked + dedupTtl (throttles ruleId).toInt * nanosPerSecond := by
  have hmirror : DedupMirror throttles iso w w :=
    ⟨hcalm, hcalm, fun _ _ _ => hred _, fun _ _ _ h => by simp [hmem] at h⟩
  refine ⟨dedupAnswers_eq calls hround hmirror, fun ruleId => ?_⟩
  obtain ⟨hinner, houter⟩ := fitsI64_ttl (throttles ruleId)
  exact ⟨hinner, houter, dedupTtl_eq _, fun marked now hpos h => lt_expiry_of_suppressed hpos h⟩

-- A mark, then checks inside the window, at its end and after the key has expired.
theorem dedupAnswers_inMemory_eq_redis_four_calls :
    dedupAnswers InMemoryRuleStateStore.store (fun _ => 1)
        [(0, .mark 7 "d"), (59 * nanosPerSecond, .check 7 "d"), (nanosPerMinute, .check 7 "d"),
          (2 * nanosPerMinute, .check 7 "d")] (World.started Tables.empty) =
      [none, some true, some false, some false] ∧
    dedupAnswers (RedisRuleStateStore.store firstMinutes) (fun _ => 1)
        [(0, .mark 7 "d"), (59 * nanosPerSecond, .check 7 "d"), (nanosPerMinute, .check 7 "d"),
          (2 * nanosPerMinute, .check 7 "d")] (World.started Tables.empty) =
      [none, some true, some false, some false] := by
  have hmem : dedupAnswers InMemoryRuleStateStore.store (fun _ => 1)
      [(0, .mark 7 "d"), (59 * nanosPerSecond, .check 7 "d"), (nanosPerMinute, .check 7 "d"),
        (2 * nanosPerMinute, .check 7 "d")] (World.started Tables.empty) =
      [none, some true, some false, some false] := by decide +kernel
  refine ⟨hmem, hmem ▸ (dedupAnswers_inMemory_eq_redis firstMinutes (fun _ => 1)
    (World.started Tables.empty) (undisturbed_started _) (fun _ => rfl) (fun _ => rfl) _ ?_).1.symm⟩
  simp only [List.mem_cons, List.not_mem_nil, or_false, forall_eq_or_imp, forall_eq]
  exact ⟨⟨"1970-01-01T00:00:00.000000000Z", rfl, rfl⟩, ⟨"1970-01-01T00:00:59.000000000Z", rfl, rfl⟩,
    ⟨"1970-01-01T00:01:00.000000000Z", rfl, rfl⟩, ⟨"1970-01-01T00:02:00.000000000Z", rfl, rfl⟩⟩

end Dedup

end RmqttThings.RuleEngine
