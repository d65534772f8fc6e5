import RmqttThings.RuleEngine.Footprint
import RmqttThings.RuleEngine.ScanLoop

namespace RmqttThings.RuleEngine

open Effects

-- What the maps of the process hold for a cell.
def memoryEntry (w : World) : Cell → Option OffsetDateTime
  | ⟨.dedup, ruleId, deviceId⟩ => w.dedup (InMemoryRuleStateStore.stateKey ruleId deviceId)
  | ⟨.duration, ruleId, deviceId⟩ =>
      w.durationTracking (InMemoryRuleStateStore.stateKey ruleId deviceId)

-- What Redis holds for a cell, with its expiry.
def redisEntry (w : World) (cell : Cell) : Option (String × OffsetDateTime) :=
  w.redis.lookup cell.redisKey

-- The program changes no cell outside `cells`: alone it does not, and between other programs none
-- of its operations does.
def TouchesOnly {ε α : Type} (entry : World → Cell → ε) (cells : Cell → Prop) (program : M α) :
    Prop :=
  (program.Uses fun op => ∀ w cell, ¬cells cell → entry (sem op w).2 cell = entry w cell) ∧
    ∀ w cell, ¬cells cell → entry (program.final sem w) cell = entry w cell

theorem touchesOnly_of_uses {ε α : Type} {entry : World → Cell → ε} {cells : Cell → Prop}
    {program : M α} {allowed : Op → Prop} (h : program.Uses allowed)
    (hallowed : ∀ op, allowed op → ∀ w cell, ¬cells cell → entry (sem op w).2 cell = entry w cell) :
    TouchesOnly entry cells program := by
  refine ⟨h.mono hallowed, fun w cell hcell => ?_⟩
  refine h.final (fun now => entry now cell = entry w cell) ?_ rfl
  intro op now hop hnow
  rw [hallowed op hop now cell hcell, hnow]

-- Each operation on a pair changes at most the cell of the pair in one family.
structure RuleStateStore.Isolated {ε : Type} (store : RuleStateStore) (entry : World → Cell → ε) :
    Prop where
  checkDedup : ∀ ruleId deviceId throttle now,
    TouchesOnly entry (fun _ => False) (store.checkDedup ruleId deviceId throttle now)
  markTriggered : ∀ ruleId deviceId throttle,
    TouchesOnly entry (· = ⟨.dedup, ruleId, deviceId⟩)
      (store.markTriggered ruleId deviceId throttle)
  checkDuration : ∀ ruleId deviceId duration now,
    TouchesOnly entry (· = ⟨.duration, ruleId, deviceId⟩)
      (store.checkDuration ruleId deviceId duration now)
  resetDuration : ∀ ruleId deviceId,
    TouchesOnly entry (· = ⟨.duration, ruleId, deviceId⟩) (store.resetDuration ruleId deviceId)

namespace InMemoryRuleStateStore

variable {op : Op} {w : World} {cell : Cell}

theorem memoryEntry_frame
    (hmark : ∀ instant, cell.family = .dedup →
      op ≠ .dedupInsert (stateKey cell.ruleId cell.deviceId) instant)
    (htrack : ∀ instant, cell.family = .duration →
      op ≠ .durationInsert (stateKey cell.ruleId cell.deviceId) instant)
    (hremove : cell.family = .duration → op ≠ .durationRemove (stateKey cell.ruleId cell.deviceId))
    (hdedup : ∀ keep, op ≠ .dedupRetain keep) (hduration : ∀ keep, op ≠ .durationRetain keep) :
    memoryEntry (sem op w).2 cell = memoryEntry w cell := by
  obtain ⟨family, ruleId, deviceId⟩ := cell
  cases family with
  | dedup => exact sem_dedup_frame w (fun instant => hmark instant rfl) hdedup
  | duration =>
      exact sem_durationTracking_frame w (fun instant => htrack instant rfl) (hremove rfl) hduration

theorem cell_eq_of_stateKey {ruleId : Int} {deviceId : String}
    (h : stateKey ruleId deviceId = stateKey cell.ruleId cell.deviceId) :
    cell = ⟨cell.family, ruleId, deviceId⟩ := by
  obtain ⟨rfl, rfl⟩ := stateKey_inj.mp h
  rfl

theorem isolated : store.Isolated memoryEntry where
  checkDedup ruleId deviceId throttle now := by
    apply touchesOnly_of_uses (ops_checkDedup ruleId deviceId throttle now)
    rintro _ rfl w cell -
    exact memoryEntry_frame nofun nofun nofun nofun nofun
  markTriggered ruleId deviceId throttle := by
    apply touchesOnly_of_uses (ops_markTriggered ruleId deviceId throttle)
    rintro _ (rfl | ⟨now, rfl⟩) w cell hcell
    · exact memoryEntry_frame nofun nofun nofun nofun nofun
    · refine memoryEntry_frame ?_ nofun nofun nofun nofun
      intro instant hfamily he
      have hcells := cell_eq_of_stateKey (Op.dedupInsert.inj he).1
      exact hcell (hfamily ▸ hcells)
  checkDuration ruleId deviceId duration now := by
    apply touchesOnly_of_uses (ops_checkDuration ruleId deviceId duration now)
    rintro _ (rfl | rfl) w cell hcell
    · exact memoryEntry_frame nofun nofun nofun nofun nofun
    · refine memoryEntry_frame nofun ?_ nofun nofun nofun
      intro instant hfamily he
      have hcells := cell_eq_of_stateKey (Op.durationInsert.inj he).1
      exact hcell (hfamily ▸ hcells)
  resetDuration ruleId deviceId := by
    apply touchesOnly_of_uses (ops_resetDuration ruleId deviceId)
    rintro _ rfl w cell hcell
    refine memoryEntry_frame nofun nofun ?_ nofun nofun
    intro hfamily he
    have hcells := cell_eq_of_stateKey (Op.durationRemove.inj he)
    exact hcell (hfamily ▸ hcells)

-- The text before the first colon of a key is the rule id.
theorem keeps_stateKey (ruleIds : List Int) (ruleId : Int) (deviceId : String) :
    keeps ruleIds (stateKey ruleId deviceId) = !decide (ruleId ∈ ruleIds) := by
  have hfirst : (stateKey ruleId deviceId).toList.takeWhile (· != ':') =
      (toString ruleId).toList := by
    have hid : ∀ char ∈ (toString ruleId).toList, (char != ':') = true := by
      intro char hmem
      rw [bne_iff_ne]
      rintro rfl
      exact colon_notMem_toString ruleId hmem
    simp only [stateKey, String.toList_append, List.append_assoc]
    rw [List.takeWhile_append_of_pos hid]
    simp
  have hmem : (ruleIds.map toString).contains (toString ruleId) = decide (ruleId ∈ ruleIds) := by
    rw [List.contains_eq_mem, decide_eq_decide]
    constructor
    · intro h
      obtain ⟨other, hother, he⟩ := List.mem_map.mp h
      exact toString_int_injective he ▸ hother
    · exact fun h => List.mem_map.mpr ⟨ruleId, h, rfl⟩
  rw [keeps, hfirst, String.ofList_toList, hmem]

theorem memoryEntry_invalidateByRuleIds (ruleIds : List Int) (w : World) (cell : Cell) :
    memoryEntry ((invalidateByRuleIds ruleIds).final sem w) cell =
      if cell.ruleId ∈ ruleIds then none else memoryEntry w cell := by
  obtain ⟨family, ruleId, deviceId⟩ := cell
  cases hempty : ruleIds.isEmpty with
  | true =>
      obtain rfl := List.isEmpty_iff.mp hempty
      rfl
  | false =>
      have hfinal : (invalidateByRuleIds ruleIds).final sem w =
          (sem (.dedupRetain (keeps ruleIds)) (sem (.durationRetain (keeps ruleIds)) w).2).2 := by
        rw [invalidateByRuleIds, hempty]
        rfl
      have hkeeps := keeps_stateKey ruleIds ruleId deviceId
      rw [hfinal]
      cases family with
      | dedup =>
          show (if keeps ruleIds (stateKey ruleId deviceId) then w.dedup (stateKey ruleId deviceId)
            else none) = _
          by_cases hmem : ruleId ∈ ruleIds <;> simp [hkeeps, hmem, memoryEntry]
      | duration =>
          show (if keeps ruleIds (stateKey ruleId deviceId) then w.durationTracking
            (stateKey ruleId deviceId)
            else none) = _
          by_cases hmem : ruleId ∈ ruleIds <;> simp [hkeeps, hmem, memoryEntry]

end InMemoryRuleStateStore

namespace RedisRuleStateStore

variable {op : Op} {w : World} {cell : Cell}

theorem redisEntry_frame (hset : ∀ text ttlSecs, op ≠ .redisSet cell.redisKey text ttlSecs)
    (hdel : ∀ keys, op = .redisDel keys → cell.redisKey ∉ keys) :
    redisEntry (sem op w).2 cell = redisEntry w cell :=
  sem_redis_frame w (fun text ttlSecs he => absurd he (hset text ttlSecs))
    fun keys he hmem => absurd hmem (hdel keys he)

theorem isolated (iso : Iso8601) : (store iso).Isolated redisEntry where
  checkDedup ruleId deviceId throttle now := by
    apply touchesOnly_of_uses (ops_checkDedup iso ruleId deviceId throttle now)
    rintro _ (rfl | rfl) w cell - <;> exact redisEntry_frame nofun nofun
  markTriggered ruleId deviceId throttle := by
    apply touchesOnly_of_uses (ops_markTriggered iso ruleId deviceId throttle)
    rintro _ (rfl | rfl | ⟨now, text, -, rfl⟩) w cell hcell
    · exact redisEntry_frame nofun nofun
    · exact redisEntry_frame nofun nofun
    · refine redisEntry_frame (fun text ttlSecs he => ?_) nofun
      exact hcell (Cell.redisKey_injective (Op.redisSet.inj he).1.symm)
  checkDuration ruleId deviceId duration now := by
    apply touchesOnly_of_uses (ops_checkDuration iso ruleId deviceId duration now)
    rintro _ (rfl | rfl | ⟨text, -, rfl⟩) w cell hcell
    · exact redisEntry_frame nofun nofun
    · exact redisEntry_frame nofun nofun
    · refine redisEntry_frame (fun text ttlSecs he => ?_) nofun
      exact hcell (Cell.redisKey_injective (Op.redisSet.inj he).1.symm)
  resetDuration ruleId deviceId := by
    apply touchesOnly_of_uses (ops_resetDuration ruleId deviceId)
    rintro _ (rfl | rfl) w cell hcell
    · exact redisEntry_frame nofun nofun
    · refine redisEntry_frame nofun ?_
      rintro _ ⟨⟩ hmem
      exact hcell (Cell.redisKey_injective (List.mem_singleton.mp hmem))

end RedisRuleStateStore

section Invalidation

variable {scan : Scan} {ruleIds : List Int} {result : Except String Unit} {w w' : World}

namespace InvalidatesByRuleIds

theorem total (hscan : ScanContract scan) (ruleIds : List Int) (w : World) :
    ∃ result w', InvalidatesByRuleIds scan ruleIds w result w' := by
  by_cases hne : ruleIds = []
  · subst hne
    exact ⟨_, _, .nothing w⟩
  · cases hconnect : (sem .redisConnect w).1 with
    | error error => exact ⟨_, _, .unconnected hne hconnect⟩
    | ok connected =>
        obtain ⟨w', hcleared⟩ := PatternsCleared.total hscan ruleIds (sem .redisConnect w).2
        exact ⟨_, w', .connected hne hconnect hcleared⟩

theorem frame (hscan : ScanContract scan) (h : InvalidatesByRuleIds scan ruleIds w result w')
    {key : String} (hkey : ∀ cell : Cell, cell.ruleId ∈ ruleIds → key ≠ cell.redisKey) :
    w'.redis.lookup key = w.redis.lookup key := by
  have hconnected : (sem .redisConnect w).2.redis.lookup key = w.redis.lookup key :=
    sem_redis_frame w nofun nofun
  cases h with
  | nothing => rfl
  | unconnected => exact hconnected
  | connected hne hconnect hcleared => rw [hcleared.frame hscan hkey, hconnected]

theorem removes (hscan : ScanContract scan) (h : InvalidatesByRuleIds scan ruleIds w result w')
    (hup : ∀ n, w.redisFaults n = .none) {cell : Cell} (hcell : cell.ruleId ∈ ruleIds) :
    result = .ok () ∧ w'.redisLookup cell.redisKey = none := by
  cases h with
  | nothing => cases hcell
  | unconnected hne hconnect =>
      simp only [sem, Op.exec, World.redisCommand, World.tick_redisFaults, hup 0] at hconnect
      cases hconnect
  | connected hne hconnect hcleared =>
      exact ⟨rfl, hcleared.removes hscan (redisUp_step _ hup) hcell⟩

end InvalidatesByRuleIds

end Invalidation

-- The keys of the state stores keep the pairs apart, and an invalidation removes the entries of
-- the listed rules and no others.
theorem store_keys_isolated (iso : Iso8601) :
    Function.Injective2 InMemoryRuleStateStore.stateKey ∧
      Function.Injective2 RedisRuleStateStore.dedupKey ∧
    Function.Injective2 RedisRuleStateStore.durationKey ∧
    (∀ ruleId deviceId otherId otherDevice, RedisRuleStateStore.dedupKey ruleId deviceId ≠
      RedisRuleStateStore.durationKey otherId otherDevice) ∧
    InMemoryRuleStateStore.store.Isolated memoryEntry ∧
    (RedisRuleStateStore.store iso).Isolated redisEntry ∧
    (∀ ruleIds w cell,
      memoryEntry ((InMemoryRuleStateStore.store.invalidateByRuleIds ruleIds).final sem w) cell =
      if cell.ruleId ∈ ruleIds then none else memoryEntry w cell) ∧
    (∀ ruleIds w, InvalidatesByRuleIds oneBatch ruleIds w
      (((RedisRuleStateStore.store iso).invalidateByRuleIds ruleIds).run sem w).1
      (((RedisRuleStateStore.store iso).invalidateByRuleIds ruleIds).final sem w)) ∧
    ScanContract oneBatch ∧
    ∀ scan, ScanContract scan → ∀ ruleIds w,
      (∃ result w', InvalidatesByRuleIds scan ruleIds w result w') ∧
      ∀ result w', InvalidatesByRuleIds scan ruleIds w result w' →
        (∀ key, (∀ cell : Cell, cell.ruleId ∈ ruleIds → key ≠ cell.redisKey) →
          w'.redis.lookup key = w.redis.lookup key) ∧
        ((∀ n, w.redisFaults n = .none) → ∀ cell : Cell, cell.ruleId ∈ ruleIds →
          result = .ok () ∧ w'.redisLookup cell.redisKey = none) := by
  refine ⟨fun _ _ _ _ => stateKey_inj.mp, fun _ _ _ _ => dedupKey_inj.mp,
    fun _ _ _ _ => durationKey_inj.mp,
    fun _ _ _ _ => dedupKey_ne_durationKey _ _ _ _, InMemoryRuleStateStore.isolated,
    RedisRuleStateStore.isolated iso, InMemoryRuleStateStore.memoryEntry_invalidateByRuleIds,
    invalidateByRuleIds_loops, scanContract_oneBatch, ?_⟩
  intro scan hscan ruleIds w
  refine ⟨InvalidatesByRuleIds.total hscan ruleIds w, fun result w' h => ?_⟩
  refine ⟨fun key hkey => ?_, fun hup cell hcell => ?_⟩
  · exact h.frame hscan hkey
  · exact h.removes hscan hup hcell

end RmqttThings.RuleEngine
