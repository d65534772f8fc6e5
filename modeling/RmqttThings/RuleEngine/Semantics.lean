import RmqttThings.RuleEngine.Engine

namespace RmqttThings.RuleEngine

open Effects

-- The shared objects that an operation can change.
inductive Part where
  | maps
  | dedup
  | durationTracking
  | redis
  | rules
  | alarms
  deriving DecidableEq

def Sql.writes : Sql → Option Part
  | .createRule _ | .updateRule _ _ | .updateRuleStatus _ _ | .deleteRule _ => some .rules
  | .insertAlarm _ | .updateAlarmWebhookStatus _ _ | .updateAlarmWebhookStatusWithRetry _ _ _ _
  | .ackAlarm _ | .clearAlarm _ | .decrementRetryAndScheduleNext _ _ | .markWebhookFinalFailure _
  | .markWebhookSuccess _ => some .alarms
  | _ => none

def Op.writes : Op → Option Part
  | .mapClone _ | .mapInsert _ _ _ | .mapRemove _ _ => some .maps
  | .dedupInsert _ _ | .dedupRetain _ => some .dedup
  | .durationInsert _ _ | .durationRemove _ | .durationRetain _ => some .durationTracking
  | .redisSet _ _ _ | .redisDel _ => some .redis
  | .sql stmt => stmt.writes
  | _ => none

namespace World

theorem clock_le_tick (w : World) : w.clock ≤ w.tick.clock := by
  simp only [tick]
  lia

-- Time passes only between the runs of programs.
def Still (w : World) : Prop := ∀ n, w.delays n = 0

theorem Still.tick {w : World} (h : w.Still) : w.tick = w := by
  have hd : (fun n => w.delays (n + 1)) = w.delays := by
    funext n
    rw [h, h]
  simp only [World.tick, h 0, hd, Int.natCast_zero, Int.add_zero]

theorem Still.sem_eq {w : World} (h : w.Still) (op : Op) : sem op w = op.exec w := by
  simp only [sem, h.tick]

end World

-- `part` is the same object content in both worlds.
def Part.Same : Part → World → World → Prop
  | .maps, w, w' => w'.maps = w.maps
  | .dedup, w, w' => w'.dedup = w.dedup
  | .durationTracking, w, w' => w'.durationTracking = w.durationTracking
  | .redis, w, w' => w'.redis = w.redis
  | .rules, w, w' => w'.tables.rules = w.tables.rules
  | .alarms, w, w' =>
      w'.tables.alarms = w.tables.alarms ∧ w'.tables.nextAlarmId = w.tables.nextAlarmId

theorem Part.Same.refl (part : Part) (w : World) : part.Same w w := by
  cases part <;> simp [Part.Same]

theorem Part.Same.trans {part : Part} {w w' w'' : World} (h : part.Same w w')
    (h' : part.Same w' w'') : part.Same w w'' := by
  cases part <;> simp_all [Part.Same]

theorem sql_same {stmt : Sql} {part : Part} (h : stmt.writes ≠ some part) (w w' : World)
    (now : OffsetDateTime) (hsame : part.Same w w') :
    part.Same w (w'.withTables (stmt.exec now w.tables).2) := by
  cases part <;> simp only [Part.Same] at hsame ⊢ <;> try exact hsame
  all_goals
    cases stmt <;> simp only [Sql.writes, ne_eq, not_true_eq_false] at h <;> simp [Sql.exec]

theorem sem_same (part : Part) {op : Op} (h : op.writes ≠ some part) (w : World) :
    part.Same w (sem op w).2 := by
  have hrefl : part.Same w w.tick := by cases part <;> simp [Part.Same]
  have hpop : part.Same w w.tick.popRedis := by cases part <;> simp [Part.Same]
  cases op with
  | sql stmt =>
      have hsql : part.Same w w.tick.popSql := by cases part <;> simp [Part.Same]
      simp only [sem, Op.exec]
      split
      · exact hsql
      · exact sql_same h w _ _ hsql
  | sendWebhook url payload =>
      have hweb : part.Same w w.tick.popWebhook := by cases part <;> simp [Part.Same]
      simp only [sem, Op.exec]
      split <;> exact hweb
  | redisConnect | redisGet _ | redisScan _ =>
      simp only [sem, Op.exec, World.redisCommand]
      split <;> exact hpop
  | redisSet _ _ _ | redisDel _ =>
      simp only [sem, Op.exec, World.redisCommand]
      split <;> try exact hpop
      cases part <;> simp_all [Part.Same, Op.writes]
  | nowUtc | mapGet _ _ | dedupGet _ | durationGet _ => exact hrefl
  | mapClone _ | mapInsert _ _ _ | mapRemove _ _ | dedupInsert _ _ | dedupRetain _
  | durationInsert _ _
  | durationRemove _ | durationRetain _ =>
      cases part <;> simp_all [Part.Same, Op.writes, sem, Op.exec]

-- A program leaves alone every object that none of its operations writes.
theorem final_same {α : Type} {program : M α} {part : Part}
    (h : program.Uses fun op => op.writes ≠ some part) (w : World) :
    part.Same w (program.final sem w) :=
  h.final (part.Same w) (fun _ w' hop hsame => hsame.trans (sem_same part hop w'))
    (Part.Same.refl part w)

theorem sem_clock (op : Op) (w : World) : (sem op w).2.clock = w.tick.clock := by
  cases op <;> simp only [sem, Op.exec, World.redisCommand] <;> first | rfl | (split <;> rfl)

theorem final_clock_le {α : Type} (program : M α) (w : World) :
    w.clock ≤ (program.final sem w).clock := by
  refine program.uses_true.final (fun w' : World => w.clock ≤ w'.clock) ?_ le_rfl
  intro op w' _ hle
  rw [sem_clock]
  exact hle.trans w'.clock_le_tick

theorem sem_delays (op : Op) (w : World) : (sem op w).2.delays = w.tick.delays := by
  cases op <;> simp only [sem, Op.exec, World.redisCommand] <;> first | rfl | (split <;> rfl)

theorem sem_nextMap {op : Op} (h : ∀ map, op ≠ .mapClone map) (w : World) :
    (sem op w).2.nextMap = w.nextMap := by
  cases op with
  | mapClone map => exact absurd rfl (h map)
  | _ =>
      simp only [sem, Op.exec, World.redisCommand]
      first | rfl | (split <;> rfl)

-- Each stream of faults only moves forward.
theorem sem_sqlFaults (op : Op) (w : World) :
    (sem op w).2.sqlFaults = w.sqlFaults ∨ (sem op w).2.sqlFaults = fun n =>
      w.sqlFaults (n + 1) := by
  cases op <;> simp only [sem, Op.exec, World.redisCommand] <;>
    first | exact .inl rfl | (split <;> first | exact .inl rfl | exact .inr rfl)

theorem sqlUp_step {op : Op} {w : World} (h : ∀ n, w.sqlFaults n = none) (n : Nat) :
    (sem op w).2.sqlFaults n = none := by
  rcases sem_sqlFaults op w with he | he <;> simp [he, h]

theorem final_sqlUp {α : Type} (program : M α) {w : World} (h : ∀ n, w.sqlFaults n = none) :
    ∀ n, (program.final sem w).sqlFaults n = none :=
  program.uses_true.final (fun w : World => ∀ n, w.sqlFaults n = none)
    (fun _ _ _ h => sqlUp_step h) h

theorem sem_redisFaults (op : Op) (w : World) :
    (sem op w).2.redisFaults = w.redisFaults ∨
      (sem op w).2.redisFaults = fun n => w.redisFaults (n + 1) := by
  cases op <;> simp only [sem, Op.exec, World.redisCommand] <;>
    first | exact .inl rfl | (split <;> first | exact .inl rfl | exact .inr rfl)

theorem redisUp_step (op : Op) {w : World} (h : ∀ n, w.redisFaults n = .none) (n : Nat) :
    (sem op w).2.redisFaults n = .none := by
  rcases sem_redisFaults op w with he | he <;> simp [he, h]

section Redis

theorem redisLookup_eq_some {w : World} {key text : String} :
    w.redisLookup key = some text ↔ ∃ expiry, w.redis.lookup key = some (text, expiry) ∧
      w.clock < expiry := by
  constructor
  · intro h
    simp only [World.redisLookup] at h
    split at h
    · rename_i value expiry hlookup
      split_ifs at h with hlive
      simp only [Option.some.injEq] at h
      exact ⟨expiry, h ▸ hlookup, hlive⟩
    · cases h
  · rintro ⟨expiry, hlookup, hlive⟩
    simp [World.redisLookup, hlookup, hlive]

theorem lookup_foldl_erase {keys : List String}
    {redis : AList fun _ : String => String × OffsetDateTime} {key : String}
    {entry : String × OffsetDateTime}
    (h : (keys.foldl (fun entries key => entries.erase key) redis).lookup key = some entry) :
    redis.lookup key = some entry := by
  induction keys generalizing redis with
  | nil => exact h
  | cons first keys ih =>
      have hrest := ih h
      by_cases he : key = first
      · subst he
        rw [AList.lookup_erase] at hrest
        cases hrest
      · rwa [AList.lookup_erase_ne he] at hrest

theorem writes_redis_cases {op : Op} (h : op.writes = some .redis) :
    (∃ key text ttlSecs, op = .redisSet key text ttlSecs) ∨ ∃ keys, op = .redisDel keys := by
  cases op with
  | redisSet key text ttlSecs => exact .inl ⟨key, text, ttlSecs, rfl⟩
  | redisDel keys => exact .inr ⟨keys, rfl⟩
  | sql stmt => cases stmt <;> simp [Op.writes, Sql.writes] at h
  | _ => simp [Op.writes] at h

-- An entry that Redis holds after an operation was there before or has just been set.
theorem sem_redis_lookup {op : Op} {w : World} {key text : String} {expiry : OffsetDateTime}
    (h : (sem op w).2.redis.lookup key = some (text, expiry)) :
    w.redis.lookup key = some (text, expiry) ∨
      ∃ ttlSecs, op = .redisSet key text ttlSecs ∧ w.redisFaults 0 = .none ∧
        expiry = w.tick.clock + ttlSecs * nanosPerSecond := by
  by_cases hwrites : op.writes = some .redis
  · rcases writes_redis_cases hwrites with ⟨key', text', ttlSecs, rfl⟩ | ⟨keys, rfl⟩
    · simp only [sem, Op.exec, World.redisCommand, World.tick_redisFaults] at h
      split at h
      · exact .inl h
      · exact .inl h
      · rename_i hnone
        by_cases he : key = key'
        · subst he
          simp only [World.withRedis_redis, World.popRedis_redis, World.tick_redis,
            AList.lookup_insert, Option.some.injEq, Prod.mk.injEq] at h
          obtain ⟨rfl, rfl⟩ := h
          exact .inr ⟨ttlSecs, rfl, hnone, rfl⟩
        · simp only [World.withRedis_redis, World.popRedis_redis, World.tick_redis,
            AList.lookup_insert_ne he] at h
          exact .inl h
    · simp only [sem, Op.exec, World.redisCommand, World.tick_redisFaults] at h
      split at h
      · exact .inl h
      · exact .inl h
      · exact .inl (lookup_foldl_erase h)
  · have hsame : (sem op w).2.redis = w.redis := sem_same .redis hwrites w
    exact .inl (hsame ▸ h)

theorem lookup_foldl_erase_of_notMem {keys : List String}
    {redis : AList fun _ : String => String × OffsetDateTime} {key : String} (h : key ∉ keys) :
    (keys.foldl (fun entries key => entries.erase key) redis).lookup key = redis.lookup key := by
  induction keys generalizing redis with
  | nil => rfl
  | cons first keys ih =>
      simp only [List.mem_cons, not_or] at h
      rw [List.foldl_cons, ih h.2, AList.lookup_erase_ne h.1]

theorem lookup_foldl_erase_of_mem {keys : List String}
    {redis : AList fun _ : String => String × OffsetDateTime} {key : String} (h : key ∈ keys) :
    (keys.foldl (fun entries key => entries.erase key) redis).lookup key = none := by
  induction keys generalizing redis with
  | nil => simp at h
  | cons first keys ih =>
      by_cases hmem : key ∈ keys
      · exact ih hmem
      · obtain rfl := (List.mem_cons.mp h).resolve_right hmem
        rw [List.foldl_cons, lookup_foldl_erase_of_notMem hmem, AList.lookup_erase]

-- The answers of the two writing commands say whether they took effect.
theorem redisSet_ok_iff {w : World} {key text : String} {ttlSecs : Int} :
    (sem (.redisSet key text ttlSecs) w).1 = .ok () ↔ w.redisFaults 0 = .none := by
  simp only [sem, Op.exec, World.redisCommand, World.tick_redisFaults]
  split <;> simp_all

theorem redisDel_ok_iff {w : World} {keys : List String} :
    (sem (.redisDel keys) w).1 = .ok () ↔ w.redisFaults 0 = .none := by
  simp only [sem, Op.exec, World.redisCommand, World.tick_redisFaults]
  split <;> simp_all

theorem redisSet_lookup {w : World} (h : w.redisFaults 0 = .none) (key text : String)
    (ttlSecs : Int) :
    (sem (.redisSet key text ttlSecs) w).2.redis.lookup key =
      some (text, (sem (.redisSet key text ttlSecs) w).2.clock + ttlSecs * nanosPerSecond) := by
  rw [sem_clock]
  simp [sem, Op.exec, World.redisCommand, h]

theorem redisDel_lookup {w : World} (h : w.redisFaults 0 = .none) {keys : List String}
    {key : String} (hmem : key ∈ keys) : (sem (.redisDel keys) w).2.redis.lookup key = none := by
  simp only [sem, Op.exec, World.redisCommand, World.tick_redisFaults, h]
  exact lookup_foldl_erase_of_mem hmem

end Redis

section Cells

-- The cells of the state store change only by the operations on them.

variable {op : Op} {key : String} (w : World)

theorem sem_dedup_frame (hinsert : ∀ instant, op ≠ .dedupInsert key instant)
    (hretain : ∀ keep, op ≠ .dedupRetain keep) : (sem op w).2.dedup key = w.dedup key := by
  by_cases hwrites : op.writes = some .dedup
  · cases op with
    | dedupInsert other instant =>
        refine Function.update_of_ne (fun he => ?_) _ _
        exact hinsert instant (by rw [he])
    | dedupRetain keep => exact absurd rfl (hretain keep)
    | sql stmt => cases stmt <;> simp [Op.writes, Sql.writes] at hwrites
    | _ => simp [Op.writes] at hwrites
  · exact congrFun (sem_same .dedup hwrites w) key

theorem sem_durationTracking_frame (hinsert : ∀ instant, op ≠ .durationInsert key instant)
    (hremove : op ≠ .durationRemove key) (hretain : ∀ keep, op ≠ .durationRetain keep) :
    (sem op w).2.durationTracking key = w.durationTracking key := by
  by_cases hwrites : op.writes = some .durationTracking
  · cases op with
    | durationInsert other instant =>
        refine Function.update_of_ne (fun he => ?_) _ _
        exact hinsert instant (by rw [he])
    | durationRemove other =>
        refine Function.update_of_ne (fun he => ?_) _ _
        exact hremove (by rw [he])
    | durationRetain keep => exact absurd rfl (hretain keep)
    | sql stmt => cases stmt <;> simp [Op.writes, Sql.writes] at hwrites
    | _ => simp [Op.writes] at hwrites
  · exact congrFun (sem_same .durationTracking hwrites w) key

theorem sem_redis_frame (hset : ∀ text ttlSecs, op = .redisSet key text ttlSecs →
    w.redisFaults 0 ≠ .none)
    (hdel : ∀ keys, op = .redisDel keys → key ∈ keys → w.redisFaults 0 ≠ .none) :
    (sem op w).2.redis.lookup key = w.redis.lookup key := by
  by_cases hwrites : op.writes = some .redis
  · rcases writes_redis_cases hwrites with ⟨other, text, ttlSecs, rfl⟩ | ⟨keys, rfl⟩
    · simp only [sem, Op.exec, World.redisCommand, World.tick_redisFaults]
      split
      · rfl
      · rfl
      · rename_i hnone
        refine AList.lookup_insert_ne fun he => ?_
        exact hset text ttlSecs (by rw [he]) hnone
    · simp only [sem, Op.exec, World.redisCommand, World.tick_redisFaults]
      split
      · rfl
      · rfl
      · rename_i hnone
        exact lookup_foldl_erase_of_notMem fun hmem => hdel keys rfl hmem hnone
  · have hsame : (sem op w).2.redis = w.redis := sem_same .redis hwrites w
    rw [hsame]

end Cells

end RmqttThings.RuleEngine
