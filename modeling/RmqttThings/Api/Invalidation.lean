import RmqttThings.Api.SharedRules
import RmqttThings.RuleEngine.Keys

namespace RmqttThings.Api

open Effects RuleEngine

section Loading

variable {state : ApiState} {start : World}

-- The list of rules that an evaluation works on: what its clone of the cache has, or
-- what the database answers.
def Loads (productId : String) (rules : List AlarmRule) (event : Event Op.Ans) : Prop :=
  (∃ map, event = ⟨.mapGet map productId, some rules⟩) ∨
    event = ⟨.sql (.queryEnabledRulesByProduct productId), .ok rules⟩

theorem run_justified (moves : List (Move Request)) :
    Pool.Justified sem (fun thread past op => ∃ served, (run state moves start).threads[thread]? =
      some served ∧ MapRule served.request past op) start (run state moves start).log :=
  Pool.justified_play sem (serve state) (spec_serve state) moves start

theorem run_mapsOk (hboot : Booted start) (moves : List (Move Request)) {log : Log}
    (hlog : log <:+ (run state moves start).log) : MapsOk start log :=
  mapsOk hboot (((run_justified moves).suffix hlog).mono
    fun _ _ _ ⟨served, _, hrule⟩ => ⟨served.request, hrule⟩)

-- No clone has anything when its evaluation looks into it.
theorem clone_empty (hboot : Booted start) (moves : List (Move Request)) {later earlier : Log}
    {thread map : Nat} {key : String} {found : Option (List AlarmRule)}
    (hlog : (run state moves start).log = later ++ (thread, ⟨.mapGet map key, found⟩) :: earlier)
    (hpast : Pool.history thread earlier = [⟨.mapClone 0, map⟩]) : found = none := by
  have hsuffix : (thread, ⟨.mapGet map key, found⟩) :: earlier <:+ (run state moves start).log :=
    ⟨later, hlog.symm⟩
  have hok := run_mapsOk hboot moves ((List.suffix_cons _ _).trans hsuffix)
  have hentry := (run_justified moves).suffix hsuffix
  have hfound : found = (stateAt start earlier).maps map key := hentry.2.1
  by_contra hne
  rw [hfound] at hne
  obtain ⟨other, rules, hinsert⟩ := hok.filled map key hne
  obtain ⟨before, rest, rfl⟩ := List.append_of_mem hinsert
  obtain ⟨⟨served, -, hclone⟩, -⟩ := hentry.2.2.suffix (List.suffix_append _ _)
  have hmine : ((thread, ⟨.mapClone 0, map⟩) : Nat × Event Op.Ans) ∈
      before ++ (other, ⟨.mapInsert map key rules, ()⟩) :: rest :=
    Pool.mem_history.mp (by rw [hpast]; simp)
  have hother : ((other, ⟨.mapClone 0, map⟩) : Nat × Event Op.Ans) ∈
      before ++ (other, ⟨.mapInsert map key rules, ()⟩) :: rest := by
    simp [Pool.mem_history.mp hclone]
  obtain rfl := hok.owner thread other map hmine hother
  have hself := Pool.mem_history.mpr hinsert
  simp [hpast] at hself

theorem loaded_rules_current (hboot : Booted start) (moves : List (Move Request))
    {later earlier : Log} {thread : Nat} {ctx : TriggerContext} {program : M Reply}
    {rules : List AlarmRule} {event : Event Op.Ans}
    (hthread : (run state moves start).threads[thread]? = some ⟨.report ctx, program⟩)
    (hlog : (run state moves start).log = later ++ (thread, event) :: earlier)
    (hloads : Loads ctx.productId rules event) :
    rules = enabledRules ctx.productId (stateAt start earlier).tables.rules := by
  have hentry := (run_justified moves).suffix ⟨later, hlog.symm⟩
  rcases hloads with ⟨map, rfl⟩ | rfl
  · obtain ⟨served, hserved, hrule⟩ := hentry.1
    obtain rfl := Option.some.inj (hthread.symm.trans hserved)
    exact absurd (clone_empty hboot moves hlog hrule.1) (by simp)
  · have hanswer := hentry.2.1
    simp only [sem, Op.exec] at hanswer
    split at hanswer
    · cases hanswer
    · exact Except.ok.inj hanswer

-- What an evaluation does until it has its rules.
def LoadStep (productId : String) : Op → Prop
  | .mapClone map => map = 0
  | .mapGet _ key | .sql (.queryEnabledRulesByProduct key) => key = productId
  | _ => False

-- It has no rules: it is about to load them, or it could not.
def Loading (productId : String) (past : Past) (program : M Reply) : Prop :=
  (∀ event ∈ past, LoadStep productId event.1) ∧
    ((∃ op next, program = .call op next ∧ LoadStep productId op) ∨
      ∃ error, ⟨.sql (.queryEnabledRulesByProduct productId), .error error⟩ ∈ past ∧
        program = .ret .evaluated)

-- The rule loop over these rules, and for a property the clear loop over the same rules.
def ruleLoops (state : ApiState) (ctx : TriggerContext) (map : Nat) (rules : List AlarmRule) :
    M Unit := do
  Prog.forEach rules (evaluateRule state.alarm nowUtc ctx ⟨map, state.cacheType.stateStore⟩)
  if ctx.triggerType = .property then
    Prog.forEach rules (clearRule ctx ⟨map, state.cacheType.stateStore⟩)
  else return ()

-- What an evaluation does with the rules that the database has answered.
def evaluation (state : ApiState) (ctx : TriggerContext) (map : Nat) (rules : List AlarmRule) :
    M Reply := do
  RuleCache.setRules ⟨map, state.cacheType.stateStore⟩ ctx.productId rules
  ruleLoops state ctx map rules
  return .evaluated

-- Wherever an evaluation has come: it loads its rules, it has found some in its clone, or it
-- evaluates those that the database has answered.
theorem evaluation_course {ctx : TriggerContext} {past : Past} {program : M Reply}
    (h : (serve state (.report ctx)).Reaches past program) :
    Loading ctx.productId past program ∨
      (∃ map rules newer, past = newer ++ [⟨.mapGet map ctx.productId, some rules⟩,
        ⟨.mapClone 0, map⟩]) ∨
      ∃ map rules newer loading,
        past = newer ++ ⟨.sql (.queryEnabledRulesByProduct ctx.productId), .ok rules⟩ :: loading ∧
        (evaluation state ctx map rules).Reaches newer program := by
  rcases Prog.reaches_call h with ⟨rfl, rfl⟩ | ⟨map, cloned, rfl, hcloned⟩
  · exact .inl ⟨by simp, .inl ⟨_, _, rfl, rfl⟩⟩
  rcases Prog.reaches_call hcloned with ⟨rfl, rfl⟩ | ⟨cached, looked, rfl, hlooked⟩
  · exact .inl ⟨by simp [LoadStep], .inl ⟨_, _, rfl, rfl⟩⟩
  cases cached with
  | some rules => exact .inr (.inl ⟨map, rules, looked, by simp⟩)
  | none =>
      rcases Prog.reaches_call hlooked with ⟨rfl, rfl⟩ | ⟨found, newer, rfl, hread⟩
      · exact .inl ⟨by simp [LoadStep], .inl ⟨_, _, rfl, rfl⟩⟩
      cases found with
      | error error =>
          obtain ⟨rfl, rfl⟩ := Prog.reaches_ret hread
          exact .inl ⟨by simp [LoadStep], .inr ⟨error, by simp, rfl⟩⟩
      | ok rules =>
          exact .inr (.inr ⟨map, rules, newer,
            [⟨.mapGet map ctx.productId, none⟩, ⟨.mapClone 0, map⟩], by simp, hread⟩)

end Loading

-- No stale rules: whatever else is going on, an evaluation that has its rules evaluates the
-- enabled rules of its product as the database has them at some moment after its start, and
-- one that has none has evaluated nothing.
theorem evaluation_loads_current_rules (state : ApiState) (start : World) (hboot : Booted start)
    (before after : List (Move Request)) (ctx : TriggerContext) :
    let started := run state before start
    let pool := run state (before ++ .spawn (.report ctx) :: after) start
    ∃ program, pool.threads[started.threads.length]? = some ⟨.report ctx, program⟩ ∧
      (Loading ctx.productId (Pool.history started.threads.length pool.log) program ∨
        ∃ rules moment map newer loading, started.log <:+ moment ∧ moment <:+ pool.log ∧
          rules = enabledRules ctx.productId (stateAt start moment).tables.rules ∧
          Pool.history started.threads.length pool.log =
            newer ++ ⟨.sql (.queryEnabledRulesByProduct ctx.productId), .ok rules⟩ :: loading ∧
          (evaluation state ctx map rules).Reaches newer program) := by
  intro started pool
  have hspawned : (run state (before ++ [.spawn (.report ctx)])
      start).threads[started.threads.length]? =
      some ⟨.report ctx, serve state (.report ctx)⟩ := by
    simp [run, Pool.play_snoc, Pool.move, Pool.spawned, started]
  obtain ⟨program, hthread⟩ := Pool.request_stable sem (serve state) _ after start _ _ hspawned
  rw [List.append_assoc, List.singleton_append] at hthread
  refine ⟨program, hthread, ?_⟩
  have hreaches := Pool.reaches_play sem (serve state) _ start _ _ hthread
  rcases evaluation_course hreaches with hloading | ⟨map, rules, newer, hpast⟩ | ⟨map, rules, newer,
    loading, hpast, h⟩
  · exact .inl hloading
  · obtain ⟨later, earlier, hlog, -, hearlier⟩ := Pool.history_eq_append newer hpast
    exact absurd (clone_empty hboot _ hlog hearlier) (by simp)
  · obtain ⟨later, earlier, hlog, -, -⟩ := Pool.history_eq_append newer hpast
    refine .inr ⟨rules, earlier, map, newer, loading, ?_, Pool.suffix_of_eq_append hlog, ?_,
      hpast, h⟩
    · exact Pool.suffix_of_fresh sem (serve state) before (.spawn (.report ctx) :: after) start
        _ le_rfl later earlier _ hlog
    · exact loaded_rules_current hboot _ hthread hlog (.inr rfl)

theorem booted_started (tables : Tables) : Booted (World.started tables) :=
  ⟨fun _ _ => rfl, Nat.zero_lt_one, fun _ => rfl, fun _ => rfl⟩

def loadsRuleOne : Event Op.Ans → Bool
  | ⟨.sql (.queryEnabledRulesByProduct _), .ok rules⟩ => decide (rules.map (·.id) = [1])
  | _ => true

def marksRule : Event Op.Ans → Bool
  | ⟨.dedupInsert _ _, _⟩ => true
  | _ => false

-- The rule is switched on, and then a device reports and the rule is marked.
theorem evaluation_loads_enabled_rule :
    let start := World.started { Tables.empty with
        rules := [{ onlineRule 1 5 with enabled := false }] }
    let before : List (Move Request) :=
      .spawn (.updateAlarmRuleStatus 1 true) :: List.replicate 5 (.step 0)
    let pool := run memoryState (before ++ .spawn (.report (online "d")) :: List.replicate 9
        (.step 1)) start
    ∃ program rules moment map newer, rules.map (·.id) = [1] ∧
      (run memoryState before start).log <:+ moment ∧ moment <:+ pool.log ∧
      rules = enabledRules "p" (stateAt start moment).tables.rules ∧
      (evaluation memoryState (online "d") map rules).Reaches newer program := by
  intro start before pool
  obtain ⟨program, -, hcourse⟩ :=
    evaluation_loads_current_rules memoryState start (booted_started _) before
    (List.replicate 9 (.step 1)) (online "d")
  have hmarks : ∃ event ∈ Pool.history 1 pool.log, marksRule event = true := by decide +kernel
  have hids : ∀ event ∈ Pool.history 1 pool.log, loadsRuleOne event = true := by decide +kernel
  rcases hcourse with hloading | ⟨rules, moment, map, newer, loading, hstarted, hmoment, hrules,
    hpast, hreaches⟩
  · obtain ⟨event, hmem, hmark⟩ := hmarks
    have hstep := hloading.1 event hmem
    unfold marksRule at hmark
    split at hmark
    · cases hstep
    · cases hmark
  · have hmem : ⟨.sql (.queryEnabledRulesByProduct "p"), .ok rules⟩ ∈ Pool.history 1 pool.log :=
      hpast ▸ List.mem_append_right _ List.mem_cons_self
    exact ⟨program, rules, moment, map, newer, of_decide_eq_true (hids _ hmem), hstarted, hmoment,
      hrules, hreaches⟩

section Store

open InMemoryRuleStateStore (stateKey)
open RedisRuleStateStore (dedupKey durationKey)

-- The state store has an entry of the rule and device.
def CacheType.Holds : CacheType → World → Int → String → Prop
  | .memory, w, ruleId, deviceId =>
      w.dedup (stateKey ruleId deviceId) ≠ none ∨ w.durationTracking (stateKey ruleId deviceId) ≠
        none
  | .redis _, w, ruleId, deviceId =>
      w.redisLookup (dedupKey ruleId deviceId) ≠ none ∨
        w.redisLookup (durationKey ruleId deviceId) ≠ none

-- The thread evaluates a report of the device.
def Evaluates (pool : Pool World Request Op.Ans Reply) (thread : Nat) (deviceId : String) : Prop :=
  ∃ ctx program, pool.threads[thread]? = some ⟨.report ctx, program⟩ ∧ ctx.deviceId = deviceId

section Left

variable (pool : Pool World Request Op.Ans Reply) (deviceId key : String)

-- An evaluation for the device has marked.
def Marked : Prop :=
  ∃ thread instant, Evaluates pool thread deviceId ∧ (thread, ⟨.dedupInsert key instant, ()⟩) ∈
    pool.log

-- An evaluation for the device has begun to track, and none has reset that since.
def Tracked : Prop :=
  ∃ later thread instant earlier, Evaluates pool thread deviceId ∧
    pool.log = later ++ (thread, ⟨.durationInsert key instant, ()⟩) :: earlier ∧
    ∀ other, Evaluates pool other deviceId → (other, ⟨.durationRemove key, ()⟩) ∉ later

def Overwrites (key : String) (event : Event Op.Ans) : Prop :=
  (∃ text ttlSecs, event = ⟨.redisSet key text ttlSecs, .ok ()⟩) ∨ event = ⟨.redisDel [key], .ok ()⟩

-- An evaluation for the device has stored the entry, none has overwritten it since, and it
-- has not expired.
def Stored (start : World) : Prop :=
  ∃ later thread text ttlSecs earlier, Evaluates pool thread deviceId ∧
    pool.log = later ++ (thread, ⟨.redisSet key text ttlSecs, .ok ()⟩) :: earlier ∧
    (∀ entry ∈ later, Evaluates pool entry.1 deviceId → ¬Overwrites key entry.2) ∧
    pool.state.clock < (stateAt start
      ((thread, ⟨.redisSet key text ttlSecs, .ok ()⟩) :: earlier)).clock + ttlSecs * nanosPerSecond

end Left

-- The evaluations of the reports of the device have left an entry of the rule: a mark, or a
-- tracking that none of them has reset.
def CacheType.Left (start : World) (pool : Pool World Request Op.Ans Reply) (ruleId : Int)
    (deviceId : String) :
    CacheType → Prop
  | .memory =>
      Marked pool deviceId (stateKey ruleId deviceId) ∨
        Tracked pool deviceId (stateKey ruleId deviceId)
  | .redis _ => Stored pool deviceId (dedupKey ruleId deviceId) start ∨
      Stored pool deviceId (durationKey ruleId deviceId) start

variable {state : ApiState} {start : World} {moves : List (Move Request)} {key : String}
  {ruleId : Int} {deviceId : String}

-- The shared map never has anything, so that no handler drops anything: all that happens to
-- the state store is what evaluations do to the entries of their devices.
theorem owns_of_log (hboot : Booted start) {later earlier : Log} {thread : Nat}
    {event : Event Op.Ans}
    (hlog : (run state moves start).log = later ++ (thread, event) :: earlier) :
    ∃ served, (run state moves start).threads[thread]? = some served ∧
      Owns served.request event.1 := by
  have hsuffix : (thread, event) :: earlier <:+ (run state moves start).log := ⟨later, hlog.symm⟩
  obtain ⟨⟨served, hserved, hrule⟩, -, hearlier⟩ := (run_justified moves).suffix hsuffix
  refine ⟨served, hserved, ?_⟩
  have hfound : Owns served.request event.1 ∨
      ∃ key rules, (⟨.mapGet 0 key, some rules⟩ : Event Op.Ans) ∈ Pool.history thread earlier := by
    obtain ⟨op, answer⟩ := event
    cases op <;> first | exact hrule | exact .inl trivial
  refine hfound.resolve_right ?_
  rintro ⟨key, rules, hmem⟩
  obtain ⟨middle, rest, rfl⟩ := List.append_of_mem (Pool.mem_history.mp hmem)
  have hrest : rest <:+ (run state moves start).log := by
    refine List.IsSuffix.trans ?_ hsuffix
    exact ⟨(thread, event) :: middle ++ [(thread, ⟨.mapGet 0 key, some rules⟩)], by simp⟩
  have hanswer : some rules = (stateAt start rest).maps 0 key :=
    (hearlier.suffix (List.suffix_append _ _)).2.1
  rw [(run_mapsOk hboot moves hrest).shared key] at hanswer
  cases hanswer

-- Whoever writes to the key of the rule and device evaluates a report of the device.
theorem evaluates_of_write (hboot : Booted start) {later earlier : Log} {thread : Nat}
    {event : Event Op.Ans}
    (hlog : (run state moves start).log = later ++ (thread, event) :: earlier)
    (hwrite : ∀ request, Owns request event.1 → ∃ ctx, request = .report ctx ∧ ctx.deviceId =
      deviceId) :
    Evaluates (run state moves start) thread deviceId := by
  obtain ⟨⟨request, program⟩, hthread, howns⟩ := owns_of_log hboot hlog
  obtain ⟨ctx, rfl, hdevice⟩ := hwrite request howns
  exact ⟨ctx, program, hthread, hdevice⟩

theorem owner_of_stateKey {request : Request}
    (h : ∃ ctx ruleId', request = .report ctx ∧ stateKey ruleId deviceId =
      stateKey ruleId' ctx.deviceId) :
    ∃ ctx, request = .report ctx ∧ ctx.deviceId = deviceId := by
  obtain ⟨ctx, _, rfl, he⟩ := h
  exact ⟨ctx, rfl, (stateKey_inj.mp he).2.symm⟩

theorem marked_iff (hboot : Booted start) :
    (run state moves start).state.dedup (stateKey ruleId deviceId) ≠ none ↔
      Marked (run state moves start) deviceId (stateKey ruleId deviceId) := by
  rw [Pool.state_eq_replay]
  have hlast := Pool.replay_last sem start (run state moves start).log
    (fun entry => ∃ instant, entry.2.1 = .dedupInsert (stateKey ruleId deviceId) instant)
    (fun w => w.dedup (stateKey ruleId deviceId)) ?_
  · rcases hlast with ⟨hnone, hpart⟩ | ⟨later, ⟨thread, op, answer⟩, earlier, hlog, ⟨instant, rfl⟩,
      -, hpart⟩
    · rw [hpart]
      refine iff_of_false (by simp [hboot.dedup _]) ?_
      rintro ⟨thread, instant, -, hmem⟩
      exact hnone _ hmem ⟨instant, rfl⟩
    · have hevaluates := evaluates_of_write hboot hlog fun _ => owner_of_stateKey
      refine iff_of_true ?_ ⟨thread, instant, hevaluates, by rw [hlog]; simp⟩
      rw [hpart]
      simp [Pool.replay, sem, Op.exec]
  · rintro later ⟨thread, op, answer⟩ earlier hlog htouch
    refine sem_dedup_frame _ (fun instant he => htouch ⟨instant, he⟩) fun keep he => ?_
    obtain ⟨served, -, howns⟩ := owns_of_log hboot hlog
    subst he
    exact howns

theorem tracked_iff (hboot : Booted start) :
    (run state moves start).state.durationTracking (stateKey ruleId deviceId) ≠ none ↔
      Tracked (run state moves start) deviceId (stateKey ruleId deviceId) := by
  rw [Pool.state_eq_replay]
  generalize hkey : stateKey ruleId deviceId = key
  have hlast := Pool.replay_last sem start (run state moves start).log
    (fun entry => (∃ instant, entry.2.1 = .durationInsert key instant) ∨ entry.2.1 =
      .durationRemove key)
    (fun w => w.durationTracking key) ?_
  · rcases hlast with ⟨hnone, hpart⟩ | ⟨later, ⟨thread, op, answer⟩, earlier, hlog, htouch,
      hlater, hpart⟩
    · rw [hpart]
      refine iff_of_false (by simp [hboot.durationTracking key]) ?_
      rintro ⟨later, thread, instant, earlier, -, hlog, -⟩
      exact hnone (thread, ⟨.durationInsert key instant, ()⟩) (by rw [hlog]; simp)
        (.inl ⟨instant, rfl⟩)
    · rw [hpart]
      rcases htouch with ⟨instant, he⟩ | he
      · obtain rfl : op = .durationInsert key instant := he
        have hevaluates := evaluates_of_write hboot hlog fun _ h => owner_of_stateKey (hkey ▸ h)
        refine iff_of_true (by simp [Pool.replay, sem, Op.exec]) ⟨later, thread, instant, earlier,
          hevaluates, hlog, ?_⟩
        exact fun other _ hmem => hlater _ hmem (.inr rfl)
      · obtain rfl : op = .durationRemove key := he
        have hevaluates := evaluates_of_write hboot hlog fun _ h => owner_of_stateKey (hkey ▸ h)
        refine iff_of_false (by simp [Pool.replay, sem, Op.exec]) ?_
        rintro ⟨later', thread', instant, earlier', -, hlog', hnot⟩
        rcases Pool.same_or_mem_of_append_eq (hlog.symm.trans hlog') with
          ⟨-, he, -⟩ | ⟨hmem, -⟩ | ⟨hmem, -⟩
        · cases he
        · exact hnot thread hevaluates hmem
        · exact hlater _ hmem (.inl ⟨instant, rfl⟩)
  · rintro later ⟨thread, op, answer⟩ earlier hlog htouch
    refine sem_durationTracking_frame _ (fun instant he => htouch (.inl ⟨instant, he⟩))
      (fun he => htouch (.inr he)) fun keep he => ?_
    obtain ⟨served, -, howns⟩ := owns_of_log hboot hlog
    subst he
    exact howns

-- A Redis key of the rule and device.
def EntryKey (ruleId : Int) (deviceId key : String) : Prop :=
  key = dedupKey ruleId deviceId ∨ key = durationKey ruleId deviceId

theorem owner_of_entryKey {other : Int} {device : String} (h : EntryKey ruleId deviceId key)
    (h' : EntryKey other device key) : device = deviceId := by
  rcases h with rfl | rfl <;> rcases h' with he | he
  · exact (dedupKey_inj.mp he).2.symm
  · exact absurd he (dedupKey_ne_durationKey _ _ _ _)
  · exact absurd he.symm (dedupKey_ne_durationKey _ _ _ _)
  · exact (durationKey_inj.mp he).2.symm

theorem evaluates_of_overwrites (hboot : Booted start) (hkey : EntryKey ruleId deviceId key)
    {later earlier : Log} {thread : Nat} {event : Event Op.Ans}
    (hlog : (run state moves start).log = later ++ (thread, event) :: earlier)
    (h : Overwrites key event) :
    Evaluates (run state moves start) thread deviceId := by
  refine evaluates_of_write hboot hlog fun request howns => ?_
  rcases h with ⟨text, ttlSecs, rfl⟩ | rfl
  · obtain ⟨ctx, other, rfl, he⟩ := howns
    exact ⟨ctx, rfl, owner_of_entryKey hkey he⟩
  · obtain ⟨ctx, other, rfl, he⟩ := howns
    exact ⟨ctx, rfl, owner_of_entryKey hkey (.inr (List.singleton_inj.mp he))⟩

theorem stored_iff (hboot : Booted start) (hredis : start.redis = ∅)
    (hkey : EntryKey ruleId deviceId key) :
    (run state moves start).state.redisLookup key ≠ none ↔
      Stored (run state moves start) deviceId key start := by
  have hclock := congrArg World.clock (Pool.state_eq_replay sem (serve state) moves start)
  rw [Stored, hclock, Pool.state_eq_replay]
  have hanswer {later earlier : Log} {thread : Nat} {event : Event Op.Ans}
      (hlog : (run state moves start).log = later ++ (thread, event) :: earlier) :
      event.2 = (sem event.1 (stateAt start earlier)).1 :=
    Pool.answered_play sem (serve state) moves start later _ earlier hlog
  have hlast := Pool.replay_last sem start (run state moves start).log
    (fun entry => Overwrites key entry.2) (fun w => w.redis.lookup key) ?_
  · rcases hlast with ⟨hnone, hpart⟩ | ⟨later, ⟨thread, event⟩, earlier, hlog, htouch,
      hlater, hpart⟩
    · refine iff_of_false ?_ ?_
      · simp [World.redisLookup, hpart, hredis]
      · rintro ⟨later, thread, text, ttlSecs, earlier, -, hlog, -⟩
        exact hnone (thread, ⟨.redisSet key text ttlSecs, .ok ()⟩) (by rw [hlog]; simp)
          (.inl ⟨text, ttlSecs, rfl⟩)
    · have hevaluates := evaluates_of_overwrites hboot hkey hlog htouch
      rcases htouch with ⟨text, ttlSecs, rfl⟩ | rfl
      · have hup := redisSet_ok_iff.mp (hanswer hlog).symm
        have hcell := hpart.trans (redisSet_lookup hup key text ttlSecs)
        have hlive : (Pool.replay sem start (run state moves start).log).redisLookup key ≠ none ↔
            (stateAt start (run state moves start).log).clock < (stateAt start
              ((thread, ⟨.redisSet key text ttlSecs, .ok ()⟩) :: earlier)).clock + ttlSecs *
                nanosPerSecond := by
          simp [World.redisLookup, hcell, Pool.replay]
        rw [hlive]
        constructor
        · intro hlt
          exact ⟨later, thread, text, ttlSecs, earlier, hevaluates, hlog,
            fun entry hmem _ => hlater entry hmem, hlt⟩
        · rintro ⟨later', thread', text', ttlSecs', earlier', -, hlog', hlater', hlt⟩
          rcases Pool.same_or_mem_of_append_eq (hlog.symm.trans hlog') with
            ⟨-, he, rfl⟩ | ⟨hmem, -⟩ | ⟨hmem, -⟩
          · cases he
            exact hlt
          · exact absurd (.inl ⟨text, ttlSecs, rfl⟩) (hlater' _ hmem hevaluates)
          · exact absurd (.inl ⟨text', ttlSecs', rfl⟩) (hlater _ hmem)
      · have hup := redisDel_ok_iff.mp (hanswer hlog).symm
        have hcell := hpart.trans (redisDel_lookup hup (List.mem_singleton_self key))
        refine iff_of_false (by simp [World.redisLookup, hcell]) ?_
        rintro ⟨later', thread', text, ttlSecs, earlier', -, hlog', hlater', -⟩
        rcases Pool.same_or_mem_of_append_eq (hlog.symm.trans hlog') with
          ⟨-, he, -⟩ | ⟨hmem, -⟩ | ⟨hmem, -⟩
        · cases he
        · exact hlater' _ hmem hevaluates (.inr rfl)
        · exact hlater _ hmem (.inl ⟨text, ttlSecs, rfl⟩)
  · rintro later ⟨thread, op, answer⟩ earlier hlog htouch
    have hanswered := hanswer hlog
    refine sem_redis_frame _ (fun text ttlSecs he hnone => htouch (.inl ⟨text, ttlSecs, ?_⟩))
      fun keys he hmem hnone => htouch (.inr ?_)
    · subst he
      exact congrArg (Sigma.mk _) (hanswered.trans (redisSet_ok_iff.mpr hnone))
    · subst he
      obtain rfl : keys = [key] := by
        obtain ⟨served, -, ctx, other, -, rfl⟩ := owns_of_log hboot hlog
        rw [List.mem_singleton.mp hmem]
      exact congrArg (Sigma.mk _) (hanswered.trans (redisDel_ok_iff.mpr hnone))

theorem holds_iff_left (hboot : Booted start) (hredis : start.redis = ∅) :
    state.cacheType.Holds (run state moves start).state ruleId deviceId ↔
      state.cacheType.Left start (run state moves start) ruleId deviceId := by
  cases state.cacheType with
  | memory => exact or_congr (marked_iff hboot) (tracked_iff hboot)
  | redis iso =>
      exact or_congr (stored_iff hboot hredis (.inl rfl)) (stored_iff hboot hredis (.inr rfl))

-- The product whose rules a request changes, by the rules that there are.
def Request.changes (rules : List AlarmRule) : Request → Option String
  | .createAlarmRule req => some req.productId
  | .updateAlarmRule id _ | .updateAlarmRuleStatus id _ | .deleteAlarmRule id =>
      (rules.find? fun rule => rule.id == id).map (·.productId)
  | _ => none

-- With this step the handler `thread` returns, with success, and `rules` are those that the
-- product it has changed had when its statement took effect.
structure Returns (state : ApiState) (start : World) (before : List (Move Request)) (thread : Nat)
    (rules : List AlarmRule) : Prop where
  running : ∃ request op next, (run state before start).threads[thread]? = some ⟨request,
    .call op next⟩
  returned : ∃ request reply, (run state (before ++ [.step thread]) start).threads[thread]? =
      some ⟨request, .ret reply⟩ ∧ (∀ error, reply ≠ .error error) ∧
    ∃ later stmt answer earlier productId, stmt.writes = some .rules ∧
      (run state before start).log = later ++ (thread, ⟨.sql stmt, .ok answer⟩) :: earlier ∧
      request.changes (stateAt start earlier).tables.rules = some productId ∧
      rules = (stateAt start earlier).tables.rules.filter fun rule => rule.productId == productId

def NoneInFlight (state : ApiState) (start : World) (moves : List (Move Request)) : Prop :=
  ∀ (thread : Nat) ctx program, (run state moves start).threads[thread]? = some ⟨.report ctx,
    program⟩ → ∃ reply, program = .ret reply

-- What `invalidate_product` documents: when a handler that changes rules returns and no
-- evaluation is in flight, the state store has nothing of the rules of the product.
def InvalidationEffective (state : ApiState) (start : World) (moves : List (Move Request)) : Prop :=
  ∀ before thread after rules, moves = before ++ .step thread :: after →
    Returns state start before thread rules →
    NoneInFlight state start (before ++ [.step thread]) → ∀ rule ∈ rules, ∀ deviceId,
      ¬state.cacheType.Holds (run state (before ++ [.step thread]) start).state rule.id deviceId

-- It is so exactly when, at each of these moments, the evaluations have left nothing to
-- invalidate: the map that `invalidate_product` takes the rule ids from is never filled.
theorem invalidationEffective_iff (state : ApiState) (start : World) (hboot : Booted start)
    (hredis : start.redis = ∅) (moves : List (Move Request)) :
    InvalidationEffective state start moves ↔
      ∀ before thread after rules, moves = before ++ .step thread :: after →
        Returns state start before thread rules →
        NoneInFlight state start (before ++ [.step thread]) → ∀ rule ∈ rules, ∀ deviceId,
          ¬state.cacheType.Left start (run state (before ++ [.step thread]) start) rule.id
            deviceId := by
  simp only [InvalidationEffective, holds_iff_left hboot hredis]

-- A device reports, the rule fires and is marked; then the rule is switched off.
def statusAfterReport : List (Move Request) :=
  .spawn (.report (online "d")) :: List.replicate 9 (.step 0) ++
    .spawn (.updateAlarmRuleStatus 1 false) :: List.replicate 4 (.step 1)

theorem invalidation_leaves_mark :
    ¬InvalidationEffective memoryState (World.started onlineTables)
      (statusAfterReport ++ [.step 1]) := by
  intro h
  have hreturns : Returns memoryState (World.started onlineTables) statusAfterReport 1
      [onlineRule 1 5] := by
    refine ⟨⟨_, _, _, rfl⟩, _, _, rfl, nofun, ?_⟩
    refine ⟨(run memoryState statusAfterReport (World.started onlineTables)).log.take 2,
      .updateRuleStatus 1 false, 1,
        (run memoryState statusAfterReport (World.started onlineTables)).log.drop 3,
      "p", rfl, ?_, rfl, rfl⟩
    exact (List.take_append_drop 2 _).symm
  have hquiet : NoneInFlight memoryState (World.started onlineTables)
      (statusAfterReport ++ [.step 1]) := by
    intro thread ctx program hthread
    rcases thread with _ | _ | thread
    · exact ⟨.evaluated, (congrArg Thread.program (Option.some.inj hthread)).symm⟩
    · exact nomatch congrArg Thread.request (Option.some.inj hthread)
    · cases hthread
  exact h statusAfterReport 1 [] [onlineRule 1 5] rfl hreturns hquiet (onlineRule 1 5) (by simp) "d"
    (.inl nofun)

def stepsThread : Move Request → Option Nat
  | .step thread => some thread
  | .spawn _ => none

def leavesEntry : Op → Bool
  | .dedupInsert _ _ | .durationInsert _ _ => true
  | _ => false

-- The rule is changed on a clean store; what a later report leaves does not count.
theorem invalidationEffective_unreported :
    let moves : List (Move Request) :=
      .spawn (.updateAlarmRuleStatus 1 true) :: List.replicate 5 (.step 0) ++
      .spawn (.report (online "d")) :: List.replicate 9 (.step 1)
    InvalidationEffective memoryState (World.started onlineTables) moves := by
  intro moves
  refine (invalidationEffective_iff memoryState (World.started onlineTables) (booted_started _) rfl
    moves).mpr ?_
  intro before thread after rules hmoves hreturns _ rule _ deviceId hleft
  have hfirst : before ++ [.step thread] = moves.take (before.length + 1) := by
    rw [hmoves, List.take_length_add_append]
    rfl
  -- Only the first thread serves a request that changes rules.
  obtain ⟨request, reply, hthread, -, _, _, _, _, _, -, -, hchanges, -⟩ := hreturns.returned
  obtain ⟨program, hserved⟩ :=
    Pool.request_stable sem (serve memoryState) _ after _ thread _ hthread
  rw [List.append_assoc, List.singleton_append, ← hmoves] at hserved
  obtain rfl : thread = 0 := by
    rcases thread with _ | _ | thread
    · rfl
    · obtain rfl : .report (online "d") = request :=
        congrArg Thread.request (Option.some.inj hserved)
      cases hchanges
    · cases hserved
  have hsteps : ∀ n < 17, (moves.map stepsThread)[n]? = some (some 0) → n ≤ 5 := by decide +kernel
  have hearly : before.length ≤ 5 := by
    refine hsteps _ ?_ ?_
    · have hlength := congrArg List.length hmoves
      simp only [List.length_append, List.length_cons] at hlength
      have hmovesLength : moves.length = 16 := rfl
      omega
    · rw [hmoves]
      simp [stepsThread]
  have hclean : ∀ n ≤ 5,
      ∀ entry ∈ (run memoryState (moves.take (n + 1)) (World.started onlineTables)).log,
      leavesEntry entry.2.1 = false := by decide +kernel
  rw [hfirst] at hleft
  rcases hleft with ⟨other, instant, -, hmem⟩ | ⟨later, other, instant, earlier, -, hlog, -⟩
  · cases hclean _ hearly _ hmem
  · cases hclean _ hearly (other, ⟨.durationInsert (stateKey rule.id deviceId) instant, ()⟩)
      (by rw [hlog]; simp)

end Store

end RmqttThings.Api
