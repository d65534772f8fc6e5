import RmqttThings.Api.Marking
import Mathlib.Algebra.Order.Ring.Int

namespace RmqttThings.Api

open Effects RuleEngine
open InMemoryRuleStateStore (stateKey)
open RedisRuleStateStore (dedupKey dedupTtl dedupTtl_eq)

section Marks

-- The operations that set the mark of a rule and device, and those that look it up.
def CacheType.Sets : CacheType → Int → String → Op → Prop
  | .memory, ruleId, deviceId, op => ∃ instant, op = .dedupInsert (stateKey ruleId deviceId) instant
  | .redis _, ruleId, deviceId, op =>
      ∃ text ttlSecs, op = .redisSet (dedupKey ruleId deviceId) text ttlSecs

def CacheType.LooksUp : CacheType → Int → String → Op → Prop
  | .memory, ruleId, deviceId, op => op = .dedupGet (stateKey ruleId deviceId)
  | .redis _, ruleId, deviceId, op => op = .redisGet (dedupKey ruleId deviceId)

-- The instant that an operation marks the rule and device with.
def CacheType.markOf : CacheType → Int → String → Op → Option OffsetDateTime
  | .memory, ruleId, deviceId, .dedupInsert key marked =>
      if key = stateKey ruleId deviceId then some marked else none
  | .redis iso, ruleId, deviceId, .redisSet key text _ =>
      if key = dedupKey ruleId deviceId then (iso.parse text).toOption else none
  | _, _, _, _ => none

-- The marks of the rule and device, newest first.
def marksOf (cacheType : CacheType) (ruleId : Int) (deviceId : String) (log : Log) :
    List OffsetDateTime :=
  log.filterMap fun entry => cacheType.markOf ruleId deviceId entry.2.1

variable {cacheType : CacheType} {ruleId : Int} {deviceId : String}

theorem sets_of_markOf {op : Op} {marked : OffsetDateTime}
    (h : cacheType.markOf ruleId deviceId op = some marked) :
    cacheType.Sets ruleId deviceId op := by
  unfold CacheType.markOf at h
  split at h
  · split_ifs at h with he
    exact ⟨_, by rw [he]⟩
  · split_ifs at h with he
    exact ⟨_, _, by rw [he]⟩
  · cases h

theorem sets_of_markOp {rule : AlarmRule} {op : Op} {marked : OffsetDateTime}
    (h : cacheType.MarkOp rule deviceId marked op) : cacheType.Sets rule.id deviceId op := by
  cases cacheType with
  | memory => exact ⟨marked, h⟩
  | redis iso =>
      obtain ⟨text, -, rfl⟩ := h
      exact ⟨text, _, rfl⟩

theorem marksOf_append_of_none {later : Log}
    (h : ∀ entry ∈ later, cacheType.markOf ruleId deviceId entry.2.1 = none)
    (log : Log) : marksOf cacheType ruleId deviceId (later ++ log) = marksOf cacheType ruleId
    deviceId log := by
  rw [marksOf, List.filterMap_append, List.filterMap_eq_nil_iff.mpr h, List.nil_append, marksOf]

theorem marksOf_cons_of_none {thread : Nat} {event : Event Op.Ans}
    (h : cacheType.markOf ruleId deviceId event.1 = none) (log : Log) :
    marksOf cacheType ruleId deviceId ((thread, event) :: log) = marksOf cacheType ruleId
      deviceId log :=
  List.filterMap_cons_none h

theorem marksOf_cons_of_some {thread : Nat} {event : Event Op.Ans} {marked : OffsetDateTime}
    (h : cacheType.markOf ruleId deviceId event.1 = some marked) (log : Log) :
    marksOf cacheType ruleId deviceId ((thread, event) :: log) = marked :: marksOf cacheType ruleId
      deviceId log :=
  List.filterMap_cons_some h

theorem markOf_of_looksUp {op : Op} (h : cacheType.LooksUp ruleId deviceId op) :
    cacheType.markOf ruleId deviceId op = none := by
  cases cacheType <;> obtain rfl : op = _ := h <;> rfl

theorem looksUp_of_passes {rule : AlarmRule} {now : OffsetDateTime} {look : Event Op.Ans}
    (h : cacheType.Passes rule deviceId now look) : cacheType.LooksUp rule.id deviceId look.1 := by
  cases cacheType <;> obtain ⟨found, rfl, -⟩ := h <;> rfl

end Marks

section Cell

-- The store has this mark: in Redis at least until the throttle window is over.
def CacheType.Keeps (rule : AlarmRule) (deviceId : String) (marked : OffsetDateTime) (w : World) :
    CacheType → Prop
  | .memory => w.dedup (stateKey rule.id deviceId) = some marked
  | .redis iso => ∃ text expiry, w.redis.lookup (dedupKey rule.id deviceId) = some (text, expiry) ∧
      iso.parse text = .ok marked ∧ marked + rule.throttleMinutes.toInt * nanosPerMinute ≤ expiry

variable {cacheType : CacheType} {rule : AlarmRule} {deviceId : String} {marked : OffsetDateTime}
  {w : World} {op : Op}

theorem keeps_frame (h : cacheType.Keeps rule deviceId marked w)
    (hsets : ¬cacheType.Sets rule.id deviceId op) {request : Request} (howns : Owns request op) :
    cacheType.Keeps rule deviceId marked (sem op w).2 := by
  cases cacheType with
  | memory =>
      have hframe : (sem op w).2.dedup (stateKey rule.id deviceId) =
          w.dedup (stateKey rule.id deviceId) :=
        sem_dedup_frame w
        (fun instant he => hsets ⟨instant, he⟩) fun keep he => by
          subst he
          exact howns
      exact hframe.trans h
  | redis iso =>
      have hframe : (sem op w).2.redis.lookup (dedupKey rule.id deviceId) =
          w.redis.lookup (dedupKey rule.id deviceId) := by
        refine sem_redis_frame w (fun text ttlSecs he => absurd ⟨text, ttlSecs, he⟩ hsets)
          fun keys he hmem => ?_
        subst he
        obtain ⟨ctx, ruleId, -, rfl⟩ := howns
        exact absurd (List.mem_singleton.mp hmem) (dedupKey_ne_durationKey _ _ _ _)
      obtain ⟨text, expiry, hlookup, hrest⟩ := h
      exact ⟨text, expiry, hframe.trans hlookup, hrest⟩

theorem throttle_le_dedupTtl (rule : AlarmRule) :
    rule.throttleMinutes.toInt * nanosPerMinute ≤ dedupTtl rule.throttleMinutes.toInt *
      nanosPerSecond := by
  rw [dedupTtl_eq]
  simp only [nanosPerMinute, nanosPerSecond]
  omega

-- A mark that is made at an instant before now is in the store.
theorem keeps_mark (hop : cacheType.MarkOp rule deviceId marked op)
    (hmark : cacheType.markOf rule.id deviceId op = some marked) (hnow : marked ≤ w.clock)
    (hup : ∀ iso, cacheType = .redis iso → w.redisFaults 0 = .none) :
    cacheType.Keeps rule deviceId marked (sem op w).2 := by
  cases cacheType with
  | memory =>
      obtain rfl : op = _ := hop
      exact Function.update_self ..
  | redis iso =>
      obtain ⟨text, -, rfl⟩ := hop
      refine ⟨text, _, redisSet_lookup (hup iso rfl) _ _ _, ?_, ?_⟩
      · cases hparse : iso.parse text with
        | error _ => simp [CacheType.markOf, hparse, Except.toOption] at hmark
        | ok parsed =>
            simp only [CacheType.markOf, if_pos, hparse, Except.toOption,
              Option.some.injEq] at hmark
            rw [hmark]
      · rw [sem_clock]
        exact Int.add_le_add (hnow.trans w.clock_le_tick) (throttle_le_dedupTtl rule)

-- A lookup that lets the trigger pass, at a moment when the store has the mark: the mark
-- is old, or it has expired, and then it is old as well.
theorem old_of_passes {now : OffsetDateTime} {look : Event Op.Ans}
    (hpos : 0 < rule.throttleMinutes.toInt) (hkeeps : cacheType.Keeps rule deviceId marked w)
    (hpasses : cacheType.Passes rule deviceId now look) (hanswer : look.2 = (sem look.1 w).1)
    (hnow : now ≤ w.clock) (hup : ∀ iso, cacheType = .redis iso → w.redisFaults 0 = .none) :
    marked + rule.throttleMinutes.toInt * nanosPerMinute ≤ (sem look.1 w).2.clock := by
  have htick : w.clock ≤ w.tick.clock := w.clock_le_tick
  have hold (hminutes : rule.throttleMinutes.toInt ≤ wholeMinutes (now - marked)) :
      marked + rule.throttleMinutes.toInt * nanosPerMinute ≤ w.tick.clock := by
    have hnanos := (le_wholeMinutes_iff hpos _).mp hminutes
    lia
  rw [sem_clock]
  cases cacheType with
  | memory =>
      obtain ⟨found, rfl, hpass⟩ := hpasses
      exact hold (hpass marked (hanswer.trans hkeeps))
  | redis iso =>
      obtain ⟨found, rfl, hpass⟩ := hpasses
      obtain ⟨text, expiry, hlookup, hparse, hexpiry⟩ := hkeeps
      simp only [sem, Op.exec, World.redisCommand, World.tick_redisFaults, hup iso rfl,
        Except.ok.injEq] at hanswer
      by_cases hlive : w.tick.clock < expiry
      · have hfound : found = some text :=
          hanswer.trans (redisLookup_eq_some.mpr ⟨expiry, hlookup, hlive⟩)
        obtain ⟨last, hlast, hminutes⟩ := hpass text hfound
        obtain rfl := Except.ok.inj (hparse.symm.trans hlast)
        exact hold hminutes
      · exact hexpiry.trans (not_lt.mp hlive)

end Cell

section Clock

variable {start : World}

theorem clock_mono {earlier log : Log} (h : earlier <:+ log) :
    (stateAt start earlier).clock ≤ (stateAt start log).clock := by
  obtain ⟨later, rfl⟩ := h
  induction later with
  | nil => exact le_rfl
  | cons entry later ih =>
      have hstep := sem_clock entry.2.1 (stateAt start (later ++ earlier))
      exact ih.trans ((World.clock_le_tick _).trans_eq hstep.symm)

theorem redis_stays_up (h : ∀ n, start.redisFaults n = .none) (log : Log) (n : Nat) :
    (stateAt start log).redisFaults n = .none := by
  induction log generalizing n with
  | nil => exact h n
  | cons entry log ih => exact redisUp_step entry.2.1 ih n

end Clock

-- Another evaluation sets the mark between the lookup of an evaluation and its own mark.
def Overtaken (cacheType : CacheType) (ruleId : Int) (deviceId : String) (log : Log) : Prop :=
  ∃ later thread mark between look earlier,
    log = later ++ (thread, mark) :: (between ++ (thread, look) :: earlier) ∧
    cacheType.Sets ruleId deviceId mark.1 ∧ cacheType.LooksUp ruleId deviceId look.1 ∧
    (∀ event ∈ Pool.history thread between, ¬cacheType.LooksUp ruleId deviceId event.1) ∧
    ∃ entry ∈ between, entry.1 ≠ thread ∧ cacheType.Sets ruleId deviceId entry.2.1

-- An alarm row of the rule and device, with the last mark of them that its evaluation has
-- made before it.
def Created (cacheType : CacheType) (ruleId : Int) (deviceId : String) (log : Log) (alarmId : Int)
    (marked : Option OffsetDateTime) : Prop :=
  ∃ later thread alarm earlier, log = later ++ (thread, ⟨.sql (.insertAlarm alarm), .ok alarmId⟩) ::
    earlier ∧ alarm.ruleId = ruleId ∧ alarm.deviceId = deviceId ∧
    (Pool.history thread earlier).findSome? (fun event => cacheType.markOf ruleId deviceId
      event.1) = marked

-- The marks of any two alarm rows of the rule and device are a throttle window apart.
def Throttled (cacheType : CacheType) (rule : AlarmRule) (deviceId : String) (log : Log) : Prop :=
  ∀ first second marked marked', Created cacheType rule.id deviceId log first marked →
    Created cacheType rule.id deviceId log second marked' → first ≠ second →
    ∃ instant instant', marked = some instant ∧ marked' = some instant' ∧
      rule.throttleMinutes.toInt ≤ wholeMinutes |instant - instant'|

section Runs

variable {state : ApiState} {start : World} {moves : List (Move Request)}

-- No store errors: with Redis, no command fails, and the instants up to `last` survive
-- being formatted and parsed.
def CacheType.Up : CacheType → World → OffsetDateTime → Prop
  | .memory, _, _ => True
  | .redis iso, w, last => (∀ n, w.redisFaults n = .none) ∧
      ∀ instant, w.clock ≤ instant → instant ≤ last → iso.RoundTrips instant

def EvaluationRule (cacheType : CacheType) : Request → Past → Op → Prop
  | .report ctx => MarkRule cacheType ctx
  | _ => fun _ _ => True

-- Any number of evaluations, in any interleaving, over one state store without errors.
structure Evaluations (state : ApiState) (start : World) (moves : List (Move Request)) : Prop where
  booted : Booted start
  reports : ∀ request, .spawn request ∈ moves → ∃ ctx, request = .report ctx
  up : state.cacheType.Up start (run state moves start).state.clock

variable (h : Evaluations state start moves)
include h

theorem marks_justified :
    Pool.Justified sem (fun thread past op => ∃ ctx program,
      (run state moves start).threads[thread]? = some ⟨.report ctx, program⟩ ∧
        MarkRule state.cacheType ctx past op)
      start (run state moves start).log := by
  have hspec (request : Request) :
      Prog.Spec (EvaluationRule state.cacheType request) (fun _ _ => True) (serve state request)
        [] := by
    cases request with
    | report ctx => exact spec_marks state ctx
    | _ =>
        exact (serve state _).uses_true.spec _ (fun _ _ _ _ => trivial) (fun _ _ _ _ _ => trivial)
          trivial
  refine (Pool.justified_play sem (serve state) hspec moves start).mono ?_
  rintro thread past op ⟨⟨request, program⟩, hthread, hrule⟩
  obtain ⟨ctx, rfl⟩ :=
    h.reports request (Pool.request_spawned sem (serve state) moves start thread _ hthread)
  exact ⟨ctx, program, hthread, hrule⟩

theorem rules_unchanged {log : Log} (hlog : log <:+ (run state moves start).log) :
    (stateAt start log).tables.rules = start.tables.rules := by
  induction log with
  | nil => rfl
  | cons entry log ih =>
      obtain ⟨thread, op, answer⟩ := entry
      obtain ⟨⟨ctx, -, -, hrule⟩, -⟩ := (marks_justified h).suffix hlog
      have hwrites : op.writes ≠ some .rules := by
        cases op with
        | sql stmt => cases stmt <;> first | exact hrule | simp [Op.writes, Sql.writes]
        | _ => simp [Op.writes]
      have hsame : (stateAt start ((thread, ⟨op, answer⟩) :: log)).tables.rules =
          (stateAt start log).tables.rules :=
        sem_same .rules hwrites _
      exact hsame.trans (ih ((List.suffix_cons _ _).trans hlog))

omit h in
theorem now_eq_clock {later earlier : Log} {thread : Nat} {now : OffsetDateTime}
    (hlog : (run state moves start).log = later ++ (thread, ⟨.nowUtc, now⟩) :: earlier) :
    now = (stateAt start ((thread, ⟨.nowUtc, now⟩) :: earlier)).clock :=
  Pool.answered_play sem (serve state) moves start later _ earlier hlog

omit h in
-- What a thread has read is not in the future.
theorem now_le_clock {thread : Nat} {now : OffsetDateTime} {log : Log}
    (hlog : log <:+ (run state moves start).log)
    (hread : ⟨.nowUtc, now⟩ ∈ Pool.history thread log) : now ≤ (stateAt start log).clock := by
  obtain ⟨later, earlier, rfl⟩ := List.append_of_mem (Pool.mem_history.mp hread)
  obtain ⟨newer, hnewer⟩ := hlog
  have hcut : (run state moves start).log = (newer ++ later) ++ (thread, ⟨.nowUtc, now⟩) ::
      earlier := by
    rw [← hnewer, List.append_assoc]
  exact (now_eq_clock hcut).trans_le (clock_mono (List.suffix_append _ _))

theorem roundTrips_now {iso : Iso8601} (hredis : state.cacheType = .redis iso) {thread : Nat}
    {now : OffsetDateTime}
    (hread : (thread, ⟨.nowUtc, now⟩) ∈ (run state moves start).log) : iso.RoundTrips now := by
  have hup := h.up
  rw [hredis, Pool.state_eq_replay] at hup
  obtain ⟨later, earlier, hlog⟩ := List.append_of_mem hread
  refine hup.2 now ?_ (now_le_clock List.suffix_rfl (Pool.mem_history.mpr hread))
  exact (clock_mono List.nil_suffix).trans_eq (now_eq_clock hlog).symm

-- Whoever sets the mark of a rule and device marks it at the instant it has just read,
-- for one of the rules it has loaded.
theorem marking_of_sets {ruleId : Int} {deviceId : String} {later earlier : Log} {thread : Nat}
    {event : Event Op.Ans}
    (hlog : (run state moves start).log = later ++ (thread, event) :: earlier)
    (hsets : state.cacheType.Sets ruleId deviceId event.1) :
    ∃ ctx program rules rule marked, (run state moves start).threads[thread]? = some ⟨.report ctx,
      program⟩ ∧
      rule ∈ rules ∧ Loaded ctx.productId rules (Pool.history thread earlier) ∧ rule.id = ruleId ∧
      state.cacheType.markOf ruleId deviceId event.1 = some marked ∧
      state.cacheType.MarkOp rule deviceId marked event.1 ∧
      (Pool.history thread earlier).head? = some ⟨.nowUtc, marked⟩ ∧
      (0 < rule.throttleMinutes.toInt → Checked state.cacheType rule deviceId marked
          (Pool.history thread earlier)) := by
  obtain ⟨op, answer⟩ := event
  obtain ⟨⟨ctx, program, hthread, hrule⟩, -⟩ := (marks_justified h).suffix ⟨later, hlog.symm⟩
  cases hcache : state.cacheType with
  | memory =>
      rw [hcache] at hsets hrule
      obtain ⟨instant, rfl⟩ := hsets
      obtain ⟨rules, rule, hmem, marked, hloaded, hop, hread, hchecked⟩ := hrule
      obtain ⟨hkey, rfl⟩ := Op.dedupInsert.inj hop
      obtain ⟨rfl, rfl⟩ := stateKey_inj.mp hkey
      exact ⟨ctx, program, rules, rule, instant, hthread, hmem, hloaded,
        rfl, by simp [CacheType.markOf], rfl, hread, hchecked⟩
  | redis iso =>
      rw [hcache] at hsets hrule
      obtain ⟨text, ttlSecs, rfl⟩ := hsets
      rcases hrule with ⟨other, device, hkey⟩ | ⟨rules, rule, hmem, marked, hloaded,
        ⟨text', hformat, hop⟩, hread, hchecked⟩
      · exact absurd hkey (dedupKey_ne_durationKey _ _ _ _)
      · obtain ⟨hkey, rfl, rfl⟩ := Op.redisSet.inj hop
        obtain ⟨rfl, rfl⟩ := dedupKey_inj.mp hkey
        have hlogged : (thread, (⟨.nowUtc, marked⟩ : Event Op.Ans)) ∈
            (run state moves start).log := by
          rw [hlog]
          exact List.mem_append_right
            _ (List.mem_cons_of_mem _ (Pool.mem_history.mp (List.mem_of_head? hread)))
        obtain ⟨formatted, hformatted, hparse⟩ := roundTrips_now h hcache hlogged
        obtain rfl := Except.ok.inj (hformat.symm.trans hformatted)
        exact ⟨ctx, program, rules, rule, marked, hthread, hmem, hloaded, rfl,
          by simp [CacheType.markOf, hparse, Except.toOption],
          ⟨text, hformat, rfl⟩, hread, hchecked⟩

variable {rule : AlarmRule} (hrule : rule ∈ start.tables.rules)
  (hids : (start.tables.rules.map (·.id)).Nodup) {deviceId : String}
include hrule hids

-- The rules do not change, so that this is the one rule of that id.
theorem mark_of_sets {later earlier : Log} {thread : Nat} {event : Event Op.Ans}
    (hlog : (run state moves start).log = later ++ (thread, event) :: earlier)
    (hsets : state.cacheType.Sets rule.id deviceId event.1) :
    ∃ marked, state.cacheType.markOf rule.id deviceId event.1 = some marked ∧
      state.cacheType.MarkOp rule deviceId marked event.1 ∧
      (Pool.history thread earlier).head? = some ⟨.nowUtc, marked⟩ ∧
      (0 < rule.throttleMinutes.toInt → Checked state.cacheType rule deviceId marked
          (Pool.history thread earlier)) := by
  obtain ⟨ctx, program, rules, other, marked, hthread, hother, ⟨load, hload, hloads⟩, hid, hrest⟩ :=
    marking_of_sets h hlog hsets
  obtain ⟨between, rest, rfl⟩ := List.append_of_mem (Pool.mem_history.mp hload)
  have hcut : (run state moves start).log = (later ++ (thread, event) :: between) ++ (thread,
      load) :: rest := by
    rw [hlog]
    simp
  have hsuffix : rest <:+ (run state moves start).log :=
    (List.suffix_cons _ _).trans ⟨later ++ (thread, event) :: between, hcut.symm⟩
  have hcurrent := loaded_rules_current h.booted moves hthread hcut hloads
  rw [rules_unchanged h hsuffix] at hcurrent
  have hmem : other ∈ start.tables.rules := by
    rw [hcurrent, enabledRules, List.mem_insertionSort] at hother
    exact (List.mem_filter.mp hother).1
  obtain rfl := List.inj_on_of_nodup_map hids hmem hrule hid
  exact ⟨marked, hrest⟩

omit hrule hids in
theorem redis_up_at {log : Log} (iso : Iso8601) (hredis : state.cacheType = .redis iso) :
    (stateAt start log).redisFaults 0 = .none := by
  have hup := h.up
  rw [hredis] at hup
  exact redis_stays_up hup.1 log 0

-- The store has the newest mark at every moment.
theorem keeps_newest {log : Log} (hlog : log <:+ (run state moves start).log)
    {newest : OffsetDateTime}
    (hnewest : (marksOf state.cacheType rule.id deviceId log).head? = some newest) :
    state.cacheType.Keeps rule deviceId newest (stateAt start log) := by
  induction log with
  | nil => cases hnewest
  | cons entry log ih =>
      obtain ⟨thread, event⟩ := entry
      obtain ⟨later, hlater⟩ := hlog
      by_cases hsets : state.cacheType.Sets rule.id deviceId event.1
      · obtain ⟨marked, hmark, hop, hread, -⟩ := mark_of_sets h hrule hids hlater.symm hsets
        rw [marksOf_cons_of_some hmark] at hnewest
        obtain rfl := Option.some.inj hnewest
        refine keeps_mark hop hmark ?_ fun iso hredis => redis_up_at h iso hredis
        exact now_le_clock ((List.suffix_cons _ _).trans ⟨later, hlater⟩) (List.mem_of_head? hread)
      · have hnone : state.cacheType.markOf rule.id deviceId event.1 = none :=
          Option.eq_none_iff_forall_ne_some.mpr fun marked hmark => hsets (sets_of_markOf hmark)
        rw [marksOf_cons_of_none hnone] at hnewest
        obtain ⟨served, -, howns⟩ := owns_of_log h.booted hlater.symm
        exact keeps_frame (ih ((List.suffix_cons _ _).trans ⟨later, hlater⟩) hnewest) hsets howns

variable (hpos : 0 < rule.throttleMinutes.toInt)
  (hover : ¬Overtaken state.cacheType rule.id deviceId (run state moves start).log)
include hpos hover

-- A new mark is a throttle window behind the newest one before it.
theorem newest_is_old {later earlier : Log} {thread : Nat} {event : Event Op.Ans}
    {marked newest : OffsetDateTime}
    (hlog : (run state moves start).log = later ++ (thread, event) :: earlier)
    (hmark : state.cacheType.markOf rule.id deviceId event.1 = some marked)
    (hnewest : (marksOf state.cacheType rule.id deviceId earlier).head? = some newest) :
    newest + rule.throttleMinutes.toInt * nanosPerMinute ≤ marked := by
  have hsets := sets_of_markOf hmark
  obtain ⟨instant, hinstant, -, -, hchecked⟩ := mark_of_sets h hrule hids hlog hsets
  obtain rfl := Option.some.inj (hmark.symm.trans hinstant)
  obtain ⟨gap, look, now, rest, hpast, hgap, hnow, hpasses⟩ := hchecked hpos
  obtain ⟨between, before, rfl, hbetween, hbefore⟩ :=
    Pool.history_eq_append (⟨.nowUtc, marked⟩ :: gap) hpast
  have hlook := looksUp_of_passes hpasses
  have hinert : ∀ event ∈ Pool.history thread between, event.1 = .nowUtc ∨
      event.1 = .redisConnect := by
    intro event hmem
    rw [hbetween, List.mem_cons] at hmem
    exact hmem.imp (fun he => by rw [he]) (hgap event)
  -- Nobody marks between the lookup and the mark: not this evaluation, and no other.
  have hquiet : ∀ entry ∈ between, state.cacheType.markOf rule.id deviceId entry.2.1 = none := by
    intro entry hentry
    refine Option.eq_none_iff_forall_ne_some.mpr fun instant hinstant => hover ?_
    refine ⟨later, thread, event, between, look, before, hlog, hsets, hlook,
      fun event hmem hlooks => ?_, entry, hentry, ?_, sets_of_markOf hinstant⟩
    · have hinert := hinert event hmem
      cases hcache : state.cacheType <;> simp [hcache, CacheType.LooksUp] at hlooks <;>
        simp [hlooks] at hinert
    · rintro rfl
      rcases hinert entry.2 (Pool.mem_history.mpr hentry) with he | he <;>
        simp [he, CacheType.markOf] at hinstant
  rw [marksOf_append_of_none hquiet, marksOf_cons_of_none (markOf_of_looksUp hlook)] at hnewest
  have hsuffix : (thread, look) :: before <:+ (run state moves start).log :=
    ⟨later ++ (thread, event) :: between, by rw [hlog]; simp⟩
  have hbeforeSuffix := (List.suffix_cons _ _).trans hsuffix
  have hread := now_le_clock hbeforeSuffix (by rw [hbefore]; exact hnow)
  obtain ⟨newer, hnewer⟩ := hsuffix
  have hanswer := Pool.answered_play sem (serve state) moves start newer _ before hnewer.symm
  have hkeeps := keeps_newest h hrule hids hbeforeSuffix hnewest
  have hold := old_of_passes hpos hkeeps hpasses hanswer hread fun iso hredis =>
      redis_up_at h iso hredis
  -- The evaluation reads its mark after the lookup.
  obtain ⟨first, second, rfl, -, -⟩ := Pool.history_eq_cons hbetween
  have hcut : (run state moves start).log = (later ++ (thread, event) :: first) ++
      (thread, ⟨.nowUtc, marked⟩) :: (second ++ (thread, look) :: before) := by
    rw [hlog]
    simp
  have hafter : (thread, look) :: before <:+ (thread, ⟨.nowUtc, marked⟩) ::
      (second ++ (thread, look) :: before) :=
    (List.suffix_append _ _).trans (List.suffix_cons _ _)
  exact (hold.trans (clock_mono hafter)).trans_eq (now_eq_clock hcut).symm

theorem marks_spaced {log : Log} (hlog : log <:+ (run state moves start).log) :
    (marksOf state.cacheType rule.id deviceId log).Pairwise fun newer older =>
      older + rule.throttleMinutes.toInt * nanosPerMinute ≤ newer := by
  induction log with
  | nil => exact List.Pairwise.nil
  | cons entry log ih =>
      have htail := ih ((List.suffix_cons _ _).trans hlog)
      obtain ⟨later, hlater⟩ := hlog
      cases hmark : state.cacheType.markOf rule.id deviceId entry.2.1 with
      | none => rwa [marksOf_cons_of_none hmark]
      | some marked =>
          have hnewest (newest : OffsetDateTime)
              (hhead : (marksOf state.cacheType rule.id deviceId log).head? = some newest) :=
            newest_is_old h hrule hids hpos hover hlater.symm hmark hhead
          rw [marksOf_cons_of_some hmark]
          refine List.pairwise_cons.mpr ⟨fun older holder => ?_, htail⟩
          cases hmarks : marksOf state.cacheType rule.id deviceId log with
          | nil => simp [hmarks] at holder
          | cons newest rest =>
              rw [hmarks] at holder htail hnewest
              have hgap := hnewest newest rfl
              rcases List.mem_cons.mp holder with rfl | hrest
              · exact hgap
              · have hspaced := List.rel_of_pairwise_cons htail hrest
                have hwindow : 0 ≤ rule.throttleMinutes.toInt * nanosPerMinute :=
                  mul_nonneg hpos.le (by decide)
                lia

omit hrule hids hpos hover in
theorem not_fails {thread : Nat} {event : Event Op.Ans}
    (hmem : (thread, event) ∈ (run state moves start).log) :
    ¬state.cacheType.Fails event := by
  intro hfails
  cases hcache : state.cacheType with
  | memory => simp [hcache, CacheType.Fails] at hfails
  | redis iso =>
      rw [hcache] at hfails
      unfold CacheType.Fails at hfails
      split at hfails
      · rename_i error
        obtain ⟨later, earlier, hlog⟩ := List.append_of_mem hmem
        have hanswer := Pool.answered_play sem (serve state) moves start later _ earlier hlog
        simp [sem, Op.exec, World.redisCommand, redis_up_at h iso hcache] at hanswer
      · rename_i now heq
        obtain ⟨error, hformat⟩ := hfails
        obtain ⟨text, htext, -⟩ := roundTrips_now h hcache hmem
        cases heq
        simp [htext] at hformat
      · exact hfails

omit hpos hover in
-- The evaluation that creates an alarm has just marked its rule and device.
theorem created_behind_mark {alarmId : Int} {marked : Option OffsetDateTime}
    (hcreated : Created state.cacheType rule.id deviceId (run state moves start).log alarmId
      marked) :
    ∃ later thread alarm between mark earlier instant,
      (run state moves start).log = (later ++ (thread, ⟨.sql (.insertAlarm alarm), .ok alarmId⟩) ::
        between) ++
        (thread, mark) :: earlier ∧
      Pool.history thread between = [] ∧ state.cacheType.markOf rule.id deviceId mark.1 =
        some instant ∧
      marked = some instant := by
  obtain ⟨later, thread, alarm, past, hlog, hid, hdevice, rfl⟩ := hcreated
  obtain ⟨⟨ctx, program, -, other, hother, event, rest, hpast, hevent⟩, -⟩ :=
    (marks_justified h).suffix ⟨later, hlog.symm⟩
  obtain ⟨between, earlier, rfl, hbetween, hearlier⟩ := Pool.history_eq_cons hpast
  have hcut : (run state moves start).log =
      (later ++ (thread, ⟨.sql (.insertAlarm alarm), .ok alarmId⟩) :: between) ++
      (thread, event) :: earlier := by
    rw [hlog]
    simp
  have hsets : state.cacheType.Sets rule.id deviceId event.1 := by
    have hmem : (thread, event) ∈ (run state moves start).log := by
      rw [hcut]
      simp
    obtain ⟨marked, hop⟩ := hevent.resolve_left (not_fails h hmem)
    rw [hdevice] at hop
    rw [hid] at hother
    exact hother ▸ sets_of_markOp hop
  obtain ⟨instant, hmark, -⟩ := mark_of_sets h hrule hids hcut hsets
  refine ⟨later, thread, alarm, between, event, earlier, instant, hcut, hbetween, hmark, ?_⟩
  rw [hpast, List.findSome?_cons, hmark]

theorem mark_apart {later earlier : Log} {thread other : Nat} {mark mark' : Event Op.Ans}
    {instant instant' : OffsetDateTime}
    (hlog : (run state moves start).log = later ++ (thread, mark) :: earlier)
    (hmem : (other, mark') ∈ earlier)
    (hmark : state.cacheType.markOf rule.id deviceId mark.1 = some instant)
    (hmark' : state.cacheType.markOf rule.id deviceId mark'.1 = some instant') :
    instant' + rule.throttleMinutes.toInt * nanosPerMinute ≤ instant := by
  have hspaced := marks_spaced h hrule hids hpos hover ⟨later, hlog.symm⟩
  rw [marksOf_cons_of_some hmark] at hspaced
  exact List.rel_of_pairwise_cons hspaced (List.mem_filterMap.mpr ⟨_, hmem, hmark'⟩)

end Runs

-- The throttle under concurrency: as long as no evaluation is overtaken between its check
-- and its mark, any two alarms of a rule and device are a window apart.
theorem throttled_of_not_overtaken (state : ApiState) (start : World) (moves : List (Move Request))
    (h : Evaluations state start moves) (rule : AlarmRule) (hrule : rule ∈ start.tables.rules)
    (hids : (start.tables.rules.map (·.id)).Nodup) (hpos : 0 < rule.throttleMinutes.toInt)
    (deviceId : String)
    (hover : ¬Overtaken state.cacheType rule.id deviceId (run state moves start).log) :
    Throttled state.cacheType rule deviceId (run state moves start).log := by
  intro first second marked marked' hfirst hsecond hne
  obtain ⟨later, thread, alarm, between, mark, earlier, instant, hlog, hbetween, hmark, rfl⟩ :=
    created_behind_mark h hrule hids hfirst
  obtain ⟨later', thread', alarm', between', mark', earlier', instant', hlog', hbetween',
      hmark', rfl⟩ :=
    created_behind_mark h hrule hids hsecond
  refine ⟨instant, instant', rfl, rfl, (le_wholeMinutes_iff hpos _).mpr ?_⟩
  rcases Pool.same_or_mem_of_append_eq (hlog.symm.trans hlog') with
    ⟨hsame, hthread, -⟩ | ⟨-, hmem⟩ | ⟨-, hmem⟩
  · -- One mark has one insertion behind it, so that this would be one row.
    obtain ⟨rfl, -⟩ := Prod.mk.inj hthread
    rcases Pool.same_or_mem_of_append_eq hsame with ⟨-, hentry, -⟩ | ⟨-, hmem⟩ | ⟨-, hmem⟩
    · cases hentry
      exact absurd rfl hne
    · have hnone := Pool.mem_history.mpr hmem
      simp [hbetween] at hnone
    · have hnone := Pool.mem_history.mpr hmem
      simp [hbetween'] at hnone
  · have hapart := mark_apart h hrule hids hpos hover hlog hmem hmark hmark'
    exact (le_sub_iff_add_le'.mpr hapart).trans (le_abs_self _)
  · have hapart := mark_apart h hrule hids hpos hover hlog' hmem hmark' hmark
    exact (le_sub_iff_add_le'.mpr hapart).trans (neg_sub instant instant' ▸ neg_le_abs _)

-- Both evaluations look up the mark before either of them sets it.
def bothChecked : List (Move Request) :=
  [.spawn (.report (online "d")), .spawn (.report (online "d"))] ++ List.replicate 6 (.step 0) ++
    List.replicate 6 (.step 1) ++ List.replicate 3 (.step 0) ++ List.replicate 3 (.step 1)

theorem both_evaluations_fire :
    Evaluations memoryState (World.started onlineTables) bothChecked ∧
      ¬Throttled .memory (onlineRule 1 5) "d"
        (run memoryState bothChecked (World.started onlineTables)).log := by
  constructor
  · refine ⟨booted_started _, ?_, trivial⟩
    intro request hmem
    simp [bothChecked] at hmem
    exact ⟨_, hmem⟩
  · intro h
    have hfirst : Created .memory 1 "d"
        (run memoryState bothChecked (World.started onlineTables)).log 1 (some 0) :=
      ⟨(run memoryState bothChecked (World.started onlineTables)).log.take 3, 0, _,
        (run memoryState bothChecked (World.started onlineTables)).log.drop 4,
        (List.take_append_drop 3 _).symm, rfl, rfl, rfl⟩
    have hsecond : Created .memory 1 "d"
        (run memoryState bothChecked (World.started onlineTables)).log 2 (some 0) :=
      ⟨(run memoryState bothChecked (World.started onlineTables)).log.take 0, 1, _,
        (run memoryState bothChecked (World.started onlineTables)).log.drop 1,
        (List.take_append_drop 0 _).symm, rfl, rfl, rfl⟩
    obtain ⟨instant, instant', hinstant, hinstant', hwindow⟩ := h 1 2 _ _ hfirst hsecond (by decide)
    cases hinstant
    cases hinstant'
    exact absurd hwindow (by decide)

-- Two reports of a device, one after the other, with the throttle window between them.
def laterStart : World :=
  { World.started onlineTables with delays := fun n => if n = 9 then 300000000000 else 0 }

def oneByOne : List (Move Request) :=
  .spawn (.report (online "d")) :: List.replicate 9 (.step 0) ++
    .spawn (.report (online "d")) :: List.replicate 9 (.step 1)

theorem throttled_one_by_one :
    (run memoryState oneByOne laterStart).state.tables.alarms.length = 2 ∧
      Throttled .memory (onlineRule 1 5) "d" (run memoryState oneByOne laterStart).log := by
  refine ⟨by decide +kernel, ?_⟩
  refine throttled_of_not_overtaken memoryState laterStart oneByOne ⟨?_, ?_, trivial⟩
    (onlineRule 1 5) (List.mem_singleton_self _) (by decide) (by decide) "d" ?_
  · exact ⟨fun _ _ => rfl, Nat.zero_lt_one, fun _ => rfl, fun _ => rfl⟩
  · intro request hmem
    simp [oneByOne] at hmem
    exact ⟨_, hmem⟩
  · -- The first evaluation is over when the second one starts.
    have hsorted : ((run memoryState oneByOne laterStart).log.map Prod.fst).Pairwise (· ≥ ·) := by
      decide +kernel
    rintro ⟨later, thread, mark, between, look, earlier, hlog, -, -, -, entry, hmem, hne, -⟩
    rw [hlog] at hsorted
    simp only [List.map_append, List.map_cons, List.pairwise_append, List.pairwise_cons] at hsorted
    have hthread : entry.1 ∈ between.map Prod.fst := List.mem_map_of_mem hmem
    have hle := hsorted.2.1.1 entry.1 (List.mem_append_left _ hthread)
    have hge := hsorted.2.1.2.2.2 entry.1 hthread thread List.mem_cons_self
    omega

end RmqttThings.Api
