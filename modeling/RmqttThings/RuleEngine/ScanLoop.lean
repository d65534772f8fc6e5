import RmqttThings.Effects.Loops
import RmqttThings.RuleEngine.Keys
import RmqttThings.RuleEngine.Semantics

namespace RmqttThings.RuleEngine

open Effects
open RedisRuleStateStore (dedupKey durationKey)

section Glob

-- A pattern whose only star is its last character asks for a prefix.
theorem globMatch_star_iff {literal text : List Char} (h : '*' ∉ literal) :
    globMatch (literal ++ ['*']) text = true ↔ literal <+: text := by
  induction literal generalizing text with
  | nil =>
      refine iff_of_true ?_ List.nil_prefix
      rw [List.nil_append, globMatch, List.any_eq_true]
      exact ⟨[], (List.mem_tails _ _).mpr List.nil_suffix, rfl⟩
  | cons char literal ih =>
      simp only [List.mem_cons, not_or] at h
      cases text with
      | nil =>
          rw [List.cons_append, globMatch]
          · simp
          · exact fun he => h.1 he.symm
      | cons first text =>
          rw [List.cons_append, globMatch]
          · rw [Bool.and_eq_true, beq_iff_eq, ih h.2, List.cons_prefix_cons]
          · exact fun he => h.1 he.symm

end Glob

inductive Family where
  | dedup
  | duration
deriving DecidableEq

def Family.head : Family → String
  | dedup => "alarm:dedup:"
  | duration => "alarm:duration:"

-- One cell of the state of a store.
structure Cell where
  family : Family
  ruleId : Int
  deviceId : String

def Cell.redisKey : Cell → String
  | ⟨.dedup, ruleId, deviceId⟩ => dedupKey ruleId deviceId
  | ⟨.duration, ruleId, deviceId⟩ => durationKey ruleId deviceId

def Family.pattern (family : Family) (ruleId : Int) : String :=
  family.head ++ toString ruleId ++ ":*"

theorem Cell.redisKey_injective : Function.Injective Cell.redisKey := by
  rintro ⟨family, ruleId, deviceId⟩ ⟨family', ruleId', deviceId'⟩ h
  cases family with
  | dedup =>
      cases family' with
      | dedup =>
          obtain ⟨rfl, rfl⟩ := dedupKey_inj.mp h
          rfl
      | duration => exact absurd h (dedupKey_ne_durationKey _ _ _ _)
  | duration =>
      cases family' with
      | dedup => exact absurd h.symm (dedupKey_ne_durationKey _ _ _ _)
      | duration =>
          obtain ⟨rfl, rfl⟩ := durationKey_inj.mp h
          rfl

theorem Cell.redisKey_eq (cell : Cell) :
    cell.redisKey = cell.family.head ++ toString cell.ruleId ++ ":" ++ cell.deviceId := by
  obtain ⟨family, ruleId, deviceId⟩ := cell
  cases family <;> rfl

-- The pattern of a rule finds the cells of the rule, and nothing else that Redis has.
theorem globMatch_pattern_iff {family : Family} {ruleId : Int} {key : String} :
    globMatch (family.pattern ruleId).toList key.toList = true ↔
      ∃ deviceId, key = (Cell.mk family ruleId deviceId).redisKey := by
  have hpattern : (family.pattern ruleId).toList = (family.head ++ toString ruleId ++ ":").toList ++
      ['*'] := by
    simp [Family.pattern, String.toList_append]
  have hstar : '*' ∉ (family.head ++ toString ruleId ++ ":").toList := by
    have hid : '*' ∉ (toString ruleId).toList := notMem_toString (by decide) (by decide) ruleId
    have hhead : '*' ∉ family.head.toList := by cases family <;> decide
    simp only [String.toList_append, List.mem_append, not_or]
    exact ⟨⟨hhead, hid⟩, by decide⟩
  rw [hpattern, globMatch_star_iff hstar]
  constructor
  · rintro ⟨rest, hrest⟩
    refine ⟨String.ofList rest, String.toList_injective ?_⟩
    rw [Cell.redisKey_eq, String.toList_append, String.toList_ofList, hrest]
  · rintro ⟨deviceId, rfl⟩
    rw [Cell.redisKey_eq]
    simp only [String.toList_append]
    exact List.prefix_append _ _

section Loop

-- One call of SCAN: the next cursor, and some of the keys. Which keys come when, and how often,
-- is up to the server.
abbrev Scan := World → Nat → String → Nat × List String

variable (scan : Scan) (pattern : String)

def scanCall (cursor : Nat) (w : World) : Except String (Nat × List String) × World :=
  w.tick.redisCommand .error fun w => (scan w cursor pattern, w)

-- A DEL that fails is only logged.
def delFound (keys : List String) (w : World) : World :=
  if keys.isEmpty then w else (sem (.redisDel keys) w).2

-- One round of the cursor loop. The batches that have been found are a ghost.
def scanRound : Nat × List (List String) × World →
    List (List String) × World ⊕ Nat × List (List String) × World
  | (cursor, found, w) =>
      match scanCall scan pattern cursor w with
      | (.error _, w) => .inl (found, w)
      | (.ok (next, keys), w) =>
          if next = 0 then .inl (found ++ [keys], delFound keys w)
          else .inr (next, found ++ [keys], delFound keys w)

-- The loop from cursor 0 on, until the cursor is 0 again or a SCAN fails.
def ScanLoop (w : World) (found : List (List String)) (w' : World) : Prop :=
  LoopEnds (scanRound scan pattern) (0, [], w) (found, w')

-- What Redis promises about SCAN: the cursor comes back to 0, only keys that match are returned,
-- and an iteration that is not broken off returns all that are there from its start to its end.
structure ScanContract : Prop where
  ends : ∀ pattern w, ∃ found w', ScanLoop scan pattern w found w'
  sound : ∀ pattern w cursor key, key ∈ (scan w cursor pattern).2 →
    globMatch pattern.toList key.toList = true
  complete : ∀ pattern w found w', (∀ n, w.redisFaults n = .none) →
    ScanLoop scan pattern w found w' →
    ∀ key, globMatch pattern.toList key.toList = true → w.redisLookup key ≠ none →
      w'.redisLookup key ≠ none → ∃ keys ∈ found, key ∈ keys

inductive PatternsCleared : List Int → World → World → Prop where
  | nil (w : World) : PatternsCleared [] w w
  | cons {ruleId : Int} {ruleIds : List Int} {found found' : List (List String)}
      {w w₁ w₂ w₃ : World} (hdedup : ScanLoop scan (Family.dedup.pattern ruleId) w found w₁)
      (hduration : ScanLoop scan (Family.duration.pattern ruleId) w₁ found' w₂)
      (rest : PatternsCleared ruleIds w₂ w₃) : PatternsCleared (ruleId :: ruleIds) w w₃

-- `invalidate_by_rule_ids` with its cursor loops.
inductive InvalidatesByRuleIds : List Int → World → Except String Unit → World → Prop where
  | nothing (w : World) : InvalidatesByRuleIds [] w (.ok ()) w
  | unconnected {ruleIds : List Int} {w : World} {error : String} (hne : ruleIds ≠ [])
      (hconnect : (sem .redisConnect w).1 = .error error) : InvalidatesByRuleIds ruleIds w
        (.error ("Redis connection failed in invalidate_by_rule_ids: " ++ error))
          (sem .redisConnect w).2
  | connected {ruleIds : List Int} {w w' : World} (hne : ruleIds ≠ [])
      (hconnect : (sem .redisConnect w).1 = .ok ())
      (hcleared : PatternsCleared scan ruleIds (sem .redisConnect w).2 w') :
      InvalidatesByRuleIds ruleIds w (.ok ()) w'

variable {scan} {pattern}

theorem scanCall_world (scan : Scan) (pattern : String) (cursor : Nat) (w : World) :
    (scanCall scan pattern cursor w).2 = (sem (.redisScan pattern) w).2 := by
  simp only [scanCall, sem, Op.exec, World.redisCommand]
  split <;> rfl

-- What one round does to the world: a SCAN, and a DEL of what it has found, if that is anything.
inductive RoundStep (scan : Scan) (pattern : String) :
    List (List String) → World → List (List String) → World → Prop where
  | broken {found : List (List String)} {w : World} (hfault : w.redisFaults 0 ≠ .none) :
      RoundStep scan pattern found w found (sem (.redisScan pattern) w).2
  | found {found : List (List String)} {w : World} (cursor : Nat) : RoundStep scan pattern found w
      (found ++ [(scan w.tick.popRedis cursor pattern).2])
      (delFound (scan w.tick.popRedis cursor pattern).2 (sem (.redisScan pattern) w).2)

theorem scanRound_cases (scan : Scan) (pattern : String) (cursor : Nat) (found : List (List String))
    (w : World) :
    ∃ found' w', RoundStep scan pattern found w found' w' ∧
      (scanRound scan pattern (cursor, found, w) = .inl (found', w') ∨
        ∃ next, scanRound scan pattern (cursor, found, w) = .inr (next, found', w')) := by
  have hworld := scanCall_world scan pattern cursor w
  simp only [scanRound]
  cases hfault : w.redisFaults 0 with
  | none =>
      have hcall : scanCall scan pattern cursor w =
          (.ok (scan w.tick.popRedis cursor pattern), w.tick.popRedis) := by
        simp only [scanCall, World.redisCommand, World.tick_redisFaults, hfault]
      rw [hcall] at hworld ⊢
      refine ⟨_, _, .found cursor, ?_⟩
      rw [← hworld]
      split
      · next he => cases he
      · next next keys w' he =>
        simp only [Prod.mk.injEq, Except.ok.injEq] at he
        obtain ⟨hpair, rfl⟩ := he
        split_ifs
        · exact .inl (by rw [hpair])
        · exact .inr ⟨next, by rw [hpair]⟩
  | error text | garbled text =>
      have hcall : scanCall scan pattern cursor w = (.error text, w.tick.popRedis) := by
        simp only [scanCall, World.redisCommand, World.tick_redisFaults, hfault]
      rw [hcall] at hworld ⊢
      refine ⟨found, _, .broken (by simp [hfault]), .inl ?_⟩
      rw [← hworld]

-- What every round keeps, the loop keeps.
theorem ScanLoop.keeps {w w' : World} {found : List (List String)}
    (h : ScanLoop scan pattern w found w') (inv : List (List String) → World → Prop)
    (hstep : ∀ found w found' w', RoundStep scan pattern found w found' w' → inv found w →
      inv found' w')
    (hstart : inv [] w) : inv found w' := by
  have hreturns (state : Nat × List (List String) × World) (result : List (List String) × World)
      (hinv : inv state.2.1 state.2.2) (hbody : scanRound scan pattern state = .inl result) :
      inv result.1 result.2 := by
    obtain ⟨found', w', hround, hend | ⟨next, hend⟩⟩ :=
      scanRound_cases scan pattern state.1 state.2.1 state.2.2
    · obtain rfl := Sum.inl.inj (hend.symm.trans hbody)
      exact hstep _ _ _ _ hround hinv
    · cases hend.symm.trans hbody
  have hrepeats (state next : Nat × List (List String) × World) (hinv : inv state.2.1 state.2.2)
      (hbody : scanRound scan pattern state = .inr next) : inv next.2.1 next.2.2 := by
    obtain ⟨found', w', hround, hend | ⟨cursor, hend⟩⟩ :=
      scanRound_cases scan pattern state.1 state.2.1 state.2.2
    · cases hend.symm.trans hbody
    · obtain rfl := Sum.inr.inj (hend.symm.trans hbody)
      exact hstep _ _ _ _ hround hinv
  exact LoopEnds.invariant hreturns hrepeats h hstart

end Loop

section Keys

variable {scan : Scan} {pattern key : String} {keys : List String} {found : List (List String)}
  {w w' : World}

-- What Redis does not have any more comes back only by a SET.
theorem gone_sem {op : Op} (hset : ∀ text ttlSecs, op ≠ .redisSet key text ttlSecs)
    (h : w.redisLookup key = none) : (sem op w).2.redisLookup key = none := by
  by_contra hne
  obtain ⟨text, hsome⟩ := Option.ne_none_iff_exists'.mp hne
  obtain ⟨expiry, hlookup, hlive⟩ := redisLookup_eq_some.mp hsome
  rcases sem_redis_lookup hlookup with hold | ⟨ttlSecs, hop, -⟩
  · rw [sem_clock] at hlive
    have hbefore := redisLookup_eq_some.mpr ⟨expiry, hold, w.clock_le_tick.trans_lt hlive⟩
    rw [h] at hbefore
    cases hbefore
  · exact hset text ttlSecs hop

theorem gone_delFound (h : w.redisLookup key = none) :
    (delFound keys w).redisLookup key = none := by
  unfold delFound
  split_ifs
  · exact h
  · exact gone_sem nofun h

theorem redisUp_delFound (h : ∀ n, w.redisFaults n = .none) (n : Nat) :
    (delFound keys w).redisFaults n = .none := by
  unfold delFound
  split_ifs
  · exact h n
  · exact redisUp_step _ h n

theorem lookup_delFound (h : key ∉ keys) :
    (delFound keys w).redis.lookup key = w.redis.lookup key := by
  unfold delFound
  split_ifs
  · rfl
  · refine sem_redis_frame w nofun ?_
    rintro _ ⟨⟩ hmem
    exact absurd hmem h

theorem delFound_removes (hup : w.redisFaults 0 = .none) (h : key ∈ keys) :
    (delFound keys w).redisLookup key = none := by
  have hne : keys.isEmpty = false := by
    cases keys with
    | nil => cases h
    | cons first keys => rfl
  have hlookup := redisDel_lookup hup h
  rw [delFound, hne, World.redisLookup]
  simp [hlookup]

namespace ScanLoop

theorem redisUp (h : ScanLoop scan pattern w found w') (hup : ∀ n, w.redisFaults n = .none) :
    ∀ n, w'.redisFaults n = .none := by
  refine h.keeps (fun _ w => ∀ n, w.redisFaults n = .none) ?_ hup
  intro found w found' w' hstep hw
  cases hstep with
  | broken => exact redisUp_step _ hw
  | found cursor => exact redisUp_delFound (redisUp_step _ hw)

theorem gone (h : ScanLoop scan pattern w found w') (hgone : w.redisLookup key = none) :
    w'.redisLookup key = none := by
  refine h.keeps (fun _ w => w.redisLookup key = none) ?_ hgone
  intro found w found' w' hstep hw
  cases hstep with
  | broken => exact gone_sem nofun hw
  | found cursor => exact gone_delFound (gone_sem nofun hw)

-- Keys that do not match stay as they are, whatever fails.
theorem frame (hscan : ScanContract scan) (h : ScanLoop scan pattern w found w')
    (hkey : globMatch pattern.toList key.toList = false) :
    w'.redis.lookup key = w.redis.lookup key := by
  refine h.keeps (fun _ now => now.redis.lookup key = w.redis.lookup key) ?_ rfl
  intro found now found' next hstep hnow
  have hscanned : (sem (.redisScan pattern) now).2.redis.lookup key = now.redis.lookup key :=
    sem_redis_frame now nofun nofun
  cases hstep with
  | broken => exact hscanned.trans hnow
  | found cursor =>
      have hmiss : key ∉ (scan now.tick.popRedis cursor pattern).2 := by
        intro hmem
        rw [hscan.sound _ _ _ _ hmem] at hkey
        cases hkey
      rw [lookup_delFound hmiss, hscanned, hnow]

-- Each batch has been deleted when the next one comes, and a key that was still there at the end
-- would have been in one of them.
theorem removes (hscan : ScanContract scan) (hup : ∀ n, w.redisFaults n = .none)
    (h : ScanLoop scan pattern w found w') (hkey : globMatch pattern.toList key.toList = true) :
    w'.redisLookup key = none := by
  have hdeleted : (∀ n, w'.redisFaults n = .none) ∧ ∀ keys ∈ found, key ∈ keys →
      w'.redisLookup key = none := by
    refine h.keeps (fun found w => (∀ n, w.redisFaults n = .none) ∧
      ∀ keys ∈ found, key ∈ keys → w.redisLookup key = none) ?_ ⟨hup, by simp⟩
    rintro found w found' w' hstep ⟨hw, hgone⟩
    cases hstep with
    | broken hfault => exact absurd (hw 0) hfault
    | found cursor =>
        refine ⟨redisUp_delFound (redisUp_step _ hw), fun keys hkeys hmem => ?_⟩
        rcases List.mem_append.mp hkeys with hold | hnew
        · exact gone_delFound (gone_sem nofun (hgone keys hold hmem))
        · rw [List.mem_singleton] at hnew
          exact delFound_removes (redisUp_step _ hw 0) (hnew ▸ hmem)
  by_contra hlive
  have hbefore : w.redisLookup key ≠ none := fun hgone => hlive (h.gone hgone)
  obtain ⟨keys, hkeys, hmem⟩ := hscan.complete pattern w found w' hup h key hkey hbefore hlive
  exact hlive (hdeleted.2 keys hkeys hmem)

end ScanLoop

namespace PatternsCleared

variable {ruleIds : List Int} {cell : Cell}

theorem total (hscan : ScanContract scan) (ruleIds : List Int) (w : World) :
    ∃ w', PatternsCleared scan ruleIds w w' := by
  induction ruleIds generalizing w with
  | nil => exact ⟨w, .nil w⟩
  | cons ruleId ruleIds ih =>
      obtain ⟨_, w₁, hdedup⟩ := hscan.ends (Family.dedup.pattern ruleId) w
      obtain ⟨_, w₂, hduration⟩ := hscan.ends (Family.duration.pattern ruleId) w₁
      obtain ⟨w₃, hrest⟩ := ih w₂
      exact ⟨w₃, .cons hdedup hduration hrest⟩

theorem frame (hscan : ScanContract scan) (h : PatternsCleared scan ruleIds w w')
    (hkey : ∀ cell : Cell, cell.ruleId ∈ ruleIds → key ≠ cell.redisKey) :
    w'.redis.lookup key = w.redis.lookup key := by
  induction h with
  | nil w => rfl
  | @cons ruleId _ _ _ _ _ _ _ hdedup hduration rest ih =>
      have hmiss (family : Family) :
          globMatch (family.pattern ruleId).toList key.toList = false := by
        rw [Bool.eq_false_iff, Ne, globMatch_pattern_iff]
        rintro ⟨deviceId, he⟩
        exact hkey _ List.mem_cons_self he
      rw [ih fun cell hmem => hkey cell (List.mem_cons_of_mem _ hmem),
        hduration.frame hscan (hmiss .duration), hdedup.frame hscan (hmiss .dedup)]

theorem gone (h : PatternsCleared scan ruleIds w w') (hgone : w.redisLookup key = none) :
    w'.redisLookup key = none := by
  induction h with
  | nil w => exact hgone
  | cons hdedup hduration rest ih => exact ih (hduration.gone (hdedup.gone hgone))

theorem removes (hscan : ScanContract scan) (hup : ∀ n, w.redisFaults n = .none)
    (h : PatternsCleared scan ruleIds w w') (hcell : cell.ruleId ∈ ruleIds) :
    w'.redisLookup cell.redisKey = none := by
  induction h with
  | nil w => cases hcell
  | @cons ruleId _ _ _ _ _ _ _ hdedup hduration rest ih =>
      by_cases hrule : cell.ruleId = ruleId
      · have hmatch : globMatch (cell.family.pattern ruleId).toList cell.redisKey.toList = true :=
          globMatch_pattern_iff.mpr ⟨cell.deviceId, by rw [← hrule]⟩
        refine rest.gone ?_
        cases hfamily : cell.family with
        | dedup => exact hduration.gone (hdedup.removes hscan hup (hfamily ▸ hmatch))
        | duration => exact hduration.removes hscan (hdedup.redisUp hup) (hfamily ▸ hmatch)
      · refine ih (hduration.redisUp (hdedup.redisUp hup)) ?_
        exact (List.mem_cons.mp hcell).resolve_left hrule

end PatternsCleared

end Keys

section OneBatch

variable {pattern key : String} {w : World}

-- A server that returns everything at once. With it the loop is `invalidatePattern`.
def oneBatch : Scan := fun w _ pattern =>
  (0, w.redis.keys.filter fun key => (w.redisLookup key).isSome && globMatch pattern.toList
    key.toList)

theorem mem_oneBatch {cursor : Nat} : key ∈ (oneBatch w cursor pattern).2 ↔
    w.redisLookup key ≠ none ∧ globMatch pattern.toList key.toList = true := by
  simp only [oneBatch, List.mem_filter, Bool.and_eq_true, Option.isSome_iff_ne_none]
  refine ⟨fun h => h.2, fun h => ⟨?_, h⟩⟩
  obtain ⟨text, hsome⟩ := Option.ne_none_iff_exists'.mp h.1
  obtain ⟨expiry, hlookup, -⟩ := redisLookup_eq_some.mp hsome
  exact AList.lookup_isSome.mp (by rw [hlookup]; rfl)

theorem oneBatch_broken (hfault : w.redisFaults 0 ≠ .none) :
    ScanLoop oneBatch pattern w [] (sem (.redisScan pattern) w).2 := by
  refine .returns ?_
  cases hkind : w.redisFaults 0 with
  | none => exact absurd hkind hfault
  | error text | garbled text =>
      simp only [scanRound, scanCall, sem, Op.exec, World.redisCommand, World.tick_redisFaults,
        hkind]

theorem oneBatch_whole (pattern : String) (hfault : w.redisFaults 0 = .none) :
    ScanLoop oneBatch pattern w [(oneBatch w.tick.popRedis 0 pattern).2]
      (delFound (oneBatch w.tick.popRedis 0 pattern).2 w.tick.popRedis) := by
  refine .returns ?_
  simp only [scanRound, scanCall, World.redisCommand, World.tick_redisFaults, hfault]
  rfl

theorem scanContract_oneBatch : ScanContract oneBatch where
  ends := by
    intro pattern w
    by_cases hfault : w.redisFaults 0 = .none
    · exact ⟨_, _, oneBatch_whole pattern hfault⟩
    · exact ⟨_, _, oneBatch_broken hfault⟩
  sound := by
    intro pattern w cursor key hmem
    exact (mem_oneBatch.mp hmem).2
  complete := by
    intro pattern w found w' hup hloop key hkey _ hlive
    obtain ⟨rfl, rfl⟩ := Prod.mk.inj (hloop.unique (oneBatch_whole pattern (hup 0)))
    refine ⟨_, List.mem_singleton_self _, mem_oneBatch.mpr ⟨fun hgone => ?_, hkey⟩⟩
    exact hlive (gone_delFound hgone)

theorem invalidatePattern_loop (pattern : String) (w : World) :
    ∃ found, ScanLoop oneBatch pattern w found
      ((RedisRuleStateStore.invalidatePattern pattern).final sem w) := by
  by_cases hfault : w.redisFaults 0 = .none
  · refine ⟨[(oneBatch w.tick.popRedis 0 pattern).2], ?_⟩
    have hloop := oneBatch_whole pattern hfault
    have hfinal : (RedisRuleStateStore.invalidatePattern pattern).final sem w =
        delFound (oneBatch w.tick.popRedis 0 pattern).2 w.tick.popRedis := by
      have hscan : sem (.redisScan pattern) w =
          (.ok [(oneBatch w.tick.popRedis 0 pattern).2], w.tick.popRedis) := by
        simp only [sem, Op.exec, World.redisCommand, World.tick_redisFaults, hfault, oneBatch]
      simp only [RedisRuleStateStore.invalidatePattern, RedisRuleStateStore.scan, Prog.bind_eq,
        Prog.perform_bind, Prog.final, Prog.run_call, hscan]
      rw [← Prog.final, Prog.final_forEach_cons, Prog.final_forEach_nil, delFound]
      split_ifs <;> rfl
    rw [hfinal]
    exact hloop
  · refine ⟨[], ?_⟩
    have hfinal : (RedisRuleStateStore.invalidatePattern pattern).final sem w =
        (sem (.redisScan pattern) w).2 := by
      cases hkind : w.redisFaults 0 with
      | none => exact absurd hkind hfault
      | error text | garbled text =>
          simp only [RedisRuleStateStore.invalidatePattern, RedisRuleStateStore.scan, Prog.bind_eq,
            Prog.perform_bind, Prog.final, Prog.run_call, sem, Op.exec, World.redisCommand,
              World.tick_redisFaults,
            hkind]
          rfl
    rw [hfinal]
    exact oneBatch_broken hfault

theorem invalidateByRuleIds_loops (ruleIds : List Int) (w : World) :
    InvalidatesByRuleIds oneBatch ruleIds w
      ((RedisRuleStateStore.invalidateByRuleIds ruleIds).run sem w).1
      ((RedisRuleStateStore.invalidateByRuleIds ruleIds).final sem w) := by
  have hcleared : ∀ (ruleIds : List Int) (w : World), PatternsCleared oneBatch ruleIds w
      ((Prog.forEach ruleIds fun ruleId => do
        RedisRuleStateStore.invalidatePattern ("alarm:dedup:" ++ toString ruleId ++ ":*")
        RedisRuleStateStore.invalidatePattern ("alarm:duration:" ++ toString ruleId ++ ":*")).final
          sem w) := by
    intro ruleIds
    induction ruleIds with
    | nil => exact fun w => .nil w
    | cons ruleId ruleIds ih =>
        intro w
        obtain ⟨_, hdedup⟩ := invalidatePattern_loop (Family.dedup.pattern ruleId) w
        obtain ⟨_, hduration⟩ := invalidatePattern_loop (Family.duration.pattern ruleId) _
        rw [Prog.final_forEach_cons, Prog.bind_eq, Prog.final_bind]
        exact .cons hdedup hduration (ih _)
  cases ruleIds with
  | nil => exact .nothing w
  | cons ruleId ruleIds =>
      cases hconnect : (sem .redisConnect w).1 with
      | error error =>
          have hrun : (RedisRuleStateStore.invalidateByRuleIds (ruleId :: ruleIds)).run sem w =
              (.error ("Redis connection failed in invalidate_by_rule_ids: " ++ error),
                (sem .redisConnect w).2) := by
            simp only [RedisRuleStateStore.invalidateByRuleIds, RedisRuleStateStore.connect,
              Prog.bind_eq,
              Prog.perform_bind, List.isEmpty_cons, Bool.false_eq_true, if_false, Prog.run_call,
                hconnect]
            rfl
          rw [Prog.final, hrun]
          exact .unconnected (List.cons_ne_nil _ _) hconnect
      | ok connected =>
          have hrun : (RedisRuleStateStore.invalidateByRuleIds (ruleId :: ruleIds)).run sem w =
              (.ok (), (Prog.forEach (ruleId :: ruleIds) fun ruleId => do
                RedisRuleStateStore.invalidatePattern ("alarm:dedup:" ++ toString ruleId ++ ":*")
                RedisRuleStateStore.invalidatePattern
                  ("alarm:duration:" ++ toString ruleId ++ ":*")).final sem
                    (sem .redisConnect w).2) := by
            simp only [RedisRuleStateStore.invalidateByRuleIds, RedisRuleStateStore.connect,
              Prog.bind_eq,
              Prog.perform_bind, List.isEmpty_cons, Bool.false_eq_true, if_false, Prog.run_call,
                hconnect,
              Prog.run_bind]
            rfl
          rw [Prog.final, hrun]
          exact .connected (List.cons_ne_nil _ _) hconnect (hcleared _ _)

end OneBatch

end RmqttThings.RuleEngine
