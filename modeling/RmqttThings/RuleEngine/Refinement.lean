import RmqttThings.RuleEngine.Rounds

namespace RmqttThings.RuleEngine

open Effects
open InMemoryRuleStateStore (stateKey)

-- The cells of a rule say what the reference needs to know, where the arrivals before
-- `n` have been evaluated and those before `c` have been through the clear loop.
structure Cells (arrivals : Nat → Arrival) (rule : AlarmRule) (n c : Nat) (w : World) : Prop where
  dedup : ∀ deviceId, Reference.LastFire arrivals rule deviceId n
    (w.dedup (stateKey rule.id deviceId))
  tracking : rule.triggerType = "property" → 0 < rule.durationMinutes.toInt → ∀ deviceId,
    Reference.FirstHeld arrivals rule deviceId n c (w.durationTracking (stateKey rule.id deviceId))

section Rounds

variable {repo : AlarmRepo} {arrivals : Nat → Arrival} {rule : AlarmRule} {n : Nat} {w w' : World}

theorem Cells.of_keys {other : AlarmRule} {c : Nat} (h : Cells arrivals other n c w)
    (hdedup : ∀ deviceId, w'.dedup (stateKey other.id deviceId) =
      w.dedup (stateKey other.id deviceId))
    (htracking : ∀ deviceId,
      w'.durationTracking (stateKey other.id deviceId) = w.durationTracking
        (stateKey other.id deviceId)) :
    Cells arrivals other n c w' := by
  refine ⟨fun deviceId => ?_, fun htype hpos deviceId => ?_⟩
  · rw [hdedup]
    exact h.dedup deviceId
  · rw [htracking]
    exact h.tracking htype hpos deviceId

-- The engine's decision is the one of the reference.
theorem Cells.fires_iff (h : Cells arrivals rule n n w) (hclock : w.clock = (arrivals n).instant) :
    Reference.Fires arrivals rule n ↔ Satisfies rule (arrivals n).ctx ∧
      Held (arrivals n).ctx rule w ∧ ¬Recent (arrivals n).ctx rule w := by
  rw [Reference.fires_iff_cells (h.dedup _) fun hsatisfies htracks =>
    h.tracking ((Reference.tracks_iff _ rule hsatisfies).mpr htracks).1
      (pos_of_tracksDuration htracks) _]
  simp only [Held, Recent, hclock]

-- A round leaves the cells of other rules and devices alone.
theorem RuleEffect.frame {ctx : TriggerContext} (h : RuleEffect repo ctx rule w w') {key : String}
    (hkey : key ≠ stateKey rule.id ctx.deviceId) :
    w'.dedup key = w.dedup key ∧ w'.durationTracking key = w.durationTracking key := by
  cases h <;> simp [hkey]

-- Only a round that fires touches the marks and the alarms.
theorem RuleEffect.outcome {ctx : TriggerContext} (h : RuleEffect repo ctx rule w w') :
    ((Satisfies rule ctx ∧ Held ctx rule w ∧ ¬Recent ctx rule w) ∧ w' = triggered repo ctx rule w) ∨
      (¬(Satisfies rule ctx ∧ Held ctx rule w ∧ ¬Recent ctx rule w) ∧ w'.dedup = w.dedup ∧
        w'.tables = w.tables) := by
  cases h with
  | ignored hsatisfies _ => exact .inr ⟨fun h => hsatisfies h.1, rfl, rfl⟩
  | untracked hfails _ => exact .inr ⟨fun h => h.1.not_fails hfails, rfl, rfl⟩
  | failed hfails _ => exact .inr ⟨fun h => h.1.not_fails hfails, rfl, rfl⟩
  | started _ htracks hnone =>
      refine .inr ⟨fun h => ?_, rfl, rfl⟩
      obtain ⟨t, ht, -⟩ := h.2.1 htracks
      simp [hnone] at ht
  | waiting _ _ _ hheld => exact .inr ⟨fun h => hheld h.2.1, rfl, rfl⟩
  | suppressed _ _ hrecent => exact .inr ⟨fun h => h.2.2 hrecent, rfl, rfl⟩
  | fired hsatisfies hheld hrecent => exact .inl ⟨⟨hsatisfies, hheld, hrecent⟩, rfl⟩

theorem RuleEffect.others {ctx : TriggerContext} (h : RuleEffect repo ctx rule w w')
    {other : AlarmRule} (hid : other.id ≠ rule.id) {c : Nat} (hcells : Cells arrivals other n c w) :
    Cells arrivals other n c w' := by
  have hkey (deviceId : String) : stateKey other.id deviceId ≠ stateKey rule.id ctx.deviceId :=
    fun he => hid (stateKey_inj.mp he).1
  exact hcells.of_keys (fun deviceId => (h.frame (hkey deviceId)).1) fun deviceId =>
    (h.frame (hkey deviceId)).2

-- The tracking cell of the device that has reported.
theorem RuleEffect.tracking (h : RuleEffect repo (arrivals n).ctx rule w w')
    (hmono : Chronological arrivals) (hclock : w.clock = (arrivals n).instant)
    (htype : rule.triggerType = "property") (hpos : 0 < rule.durationMinutes.toInt)
    (hcell : Reference.FirstHeld arrivals rule (arrivals n).ctx.deviceId n n
      (w.durationTracking (stateKey rule.id (arrivals n).ctx.deviceId))) :
    Reference.FirstHeld arrivals rule (arrivals n).ctx.deviceId (n + 1) n
      (w'.durationTracking (stateKey rule.id (arrivals n).ctx.deviceId)) := by
  have htracks {actual : Json} (hactual : actualValue (arrivals n).ctx rule = some actual) :=
    tracksDuration_of_actualValue htype hpos hactual
  have hcontinued (hsatisfies : Satisfies rule (arrivals n).ctx) {t : OffsetDateTime}
      (hsome : w.durationTracking (stateKey rule.id (arrivals n).ctx.deviceId) = some t) :
      Reference.FirstHeld arrivals rule (arrivals n).ctx.deviceId (n + 1) n
        (w.durationTracking (stateKey rule.id (arrivals n).ctx.deviceId)) := by
    rw [hsome] at hcell ⊢
    exact hcell.continued hmono hsatisfies
  cases h with
  | ignored hsatisfies hfails => exact hcell.ignored fun _ => ⟨hsatisfies, hfails⟩
  | untracked hfails hnot =>
      obtain ⟨actual, hactual, -⟩ := hfails
      simp [htracks hactual] at hnot
  | failed hfails _ =>
      simp only [World.withDurationTracking_durationTracking, Function.update_self]
      exact Reference.FirstHeld.failed rfl hfails
  | started hsatisfies _ hnone =>
      rw [hnone] at hcell
      simp only [World.withDurationTracking_durationTracking, Function.update_self, hclock]
      exact hcell.started rfl hsatisfies
  | waiting hsatisfies _ hsome _ =>
      obtain ⟨t, ht⟩ := Option.ne_none_iff_exists'.mp hsome
      exact hcontinued hsatisfies ht
  | suppressed hsatisfies hheld _ =>
      obtain ⟨actual, hactual, hcondition⟩ := hsatisfies
      obtain ⟨t, ht, -⟩ := hheld (htracks hactual)
      exact hcontinued ⟨actual, hactual, hcondition⟩ ht
  | fired hsatisfies hheld _ =>
      obtain ⟨actual, hactual, hcondition⟩ := hsatisfies
      obtain ⟨t, ht, -⟩ := hheld (htracks hactual)
      rw [triggered_durationTracking]
      exact hcontinued ⟨actual, hactual, hcondition⟩ ht

theorem Reference.FirstHeld.other {deviceId : String} {cell : Option OffsetDateTime}
    (h : FirstHeld arrivals rule deviceId n n cell) (hdevice : deviceId ≠ device arrivals n) :
    FirstHeld arrivals rule deviceId (n + 1) n cell :=
  h.ignored fun he => absurd he.symm hdevice

-- A round of the rule loop takes the cells of its rule one arrival further, and
-- appends the alarm of the reference.
theorem RuleEffect.round (h : RuleEffect repo (arrivals n).ctx rule w w')
    (hmono : Chronological arrivals) (hclock : w.clock = (arrivals n).instant)
    (hcalm : w.Calm) (hcells : Cells arrivals rule n n w) :
    Cells arrivals rule (n + 1) n w' ∧
      (Reference.Fires arrivals rule n ∧ w'.tables.alarms.map AlarmRecord.plain =
          w.tables.alarms.map AlarmRecord.plain ++ [Reference.row arrivals rule n n] ∨
        ¬Reference.Fires arrivals rule n ∧ w'.tables.alarms = w.tables.alarms) := by
  have hfires := hcells.fires_iff hclock
  have htracking (htype : rule.triggerType = "property") (hpos : 0 < rule.durationMinutes.toInt)
      (deviceId : String) : Reference.FirstHeld arrivals rule deviceId (n + 1) n
        (w'.durationTracking (stateKey rule.id deviceId)) := by
    by_cases hdevice : deviceId = (arrivals n).ctx.deviceId
    · subst hdevice
      exact h.tracking hmono hclock htype hpos (hcells.tracking htype hpos _)
    · have hkey : stateKey rule.id deviceId ≠ stateKey rule.id (arrivals n).ctx.deviceId :=
        fun he => hdevice (stateKey_inj.mp he).2
      rw [(h.frame hkey).2]
      exact (hcells.tracking htype hpos deviceId).other hdevice
  rcases h.outcome with ⟨hyes, hw'⟩ | ⟨hno, hdedup, htables⟩
  · have hfire := hfires.mpr hyes
    refine ⟨⟨fun deviceId => ?_, htracking⟩, .inl ⟨hfire, ?_⟩⟩
    · by_cases hdevice : deviceId = (arrivals n).ctx.deviceId
      · subst hdevice
        rw [hw', triggered_dedup, Function.update_self, hclock]
        exact Reference.LastFire.fired hmono rfl hfire
      · have hkey : stateKey rule.id deviceId ≠ stateKey rule.id (arrivals n).ctx.deviceId :=
          fun he => hdevice (stateKey_inj.mp he).2
        rw [(h.frame hkey).1]
        exact (hcells.dedup deviceId).skipped fun he => absurd he.symm hdevice
    · rw [hw', triggered_alarms hcalm, hclock, Reference.row_self]
  · refine ⟨⟨fun deviceId => ?_, htracking⟩, .inr ⟨mt hfires.mp hno, by rw [htables]⟩⟩
    rw [hdedup]
    exact (hcells.dedup deviceId).skipped fun _ => mt hfires.mp hno

-- A round of the clear loop takes the cells of its rule through this arrival.
theorem ClearEffect.frame {ctx : TriggerContext} (h : ClearEffect ctx rule w w') :
    w'.dedup = w.dedup ∧ ∀ key, key ≠ stateKey rule.id ctx.deviceId →
      w'.durationTracking key = w.durationTracking key := by
  cases h with
  | idle _ _ hdedup htracking => exact ⟨hdedup, fun _ _ => by rw [htracking]⟩
  | cleared _ _ _ hdedup htracking => exact ⟨hdedup, fun key hkey => by simp [htracking, hkey]⟩

theorem ClearEffect.others {ctx : TriggerContext} (h : ClearEffect ctx rule w w')
    {other : AlarmRule} (hid : other.id ≠ rule.id) {c : Nat} (hcells : Cells arrivals other n c w) :
    Cells arrivals other n c w' :=
  hcells.of_keys (fun _ => by rw [h.frame.1])
    fun _ => h.frame.2 _ fun he => hid (stateKey_inj.mp he).1

theorem plain_cleared (arrival : Arrival) (row : AlarmRecord) :
    (Reference.cleared rule arrival row).plain = Reference.cleared rule arrival row.plain := by
  unfold Reference.cleared
  by_cases h : Reference.clearHolds rule arrival.ctx = true ∧ row.ruleId = rule.id ∧
      row.deviceId = arrival.ctx.deviceId ∧ row.status ≠ .cleared
  · rw [if_pos h]
    exact (if_pos h).symm
  · rw [if_neg h]
    exact (if_neg h).symm

end Rounds

section Loops

variable {repo : AlarmRepo} {map : Nat} {catalogue : String → List AlarmRule}
  {arrivals : Nat → Arrival} {rules : List AlarmRule} {n : Nat} {w : World}

-- What holds of the world while arrival `n` is processed.
structure Settled (map : Nat) (catalogue : String → List AlarmRule) (arrival : Arrival)
    (w : World) : Prop where
  calm : w.Calm
  clock : w.clock = arrival.instant
  fresh : w.Fresh
  serves : Serves ⟨map, InMemoryRuleStateStore.store⟩ catalogue w

theorem Settled.final {α : Type} {arrival : Arrival} (h : Settled map catalogue arrival w)
    {program : M α} {parts : List Part} (hwrites : Writes parts program) (hmaps : Part.maps ∉ parts)
    (hrules : Part.rules ∉ parts) :
    Settled map catalogue arrival (program.final sem w) :=
  ⟨h.calm.final program, (h.calm.final_clock program).trans h.clock, h.fresh.final program,
    h.serves.of_same (hwrites.same .maps hmaps w) (hwrites.same .rules hrules w)⟩

theorem rest_eq {done rest rest' : List AlarmRule} {rule : AlarmRule}
    (he : rules = done ++ rule :: rest) (he' : rules = done ++ [rule] ++ rest') : rest' = rest := by
  rw [he, List.append_assoc] at he'
  exact (List.cons.inj (List.append_cancel_left he')).2.symm

open Classical in
-- The rule loop at arrival `n`, when the rules `done` have been through it.
structure Evaluated (map : Nat) (catalogue : String → List AlarmRule) (arrivals : Nat → Arrival)
    (rules : List AlarmRule) (n : Nat) (done : List AlarmRule) (w : World) : Prop where
  settled : Settled map catalogue (arrivals n) w
  evaluated : ∀ rule ∈ done, Cells arrivals rule (n + 1) n w
  pending : ∀ rest, rules = done ++ rest → ∀ rule ∈ rest, Cells arrivals rule n n w
  alarms : w.tables.alarms.map AlarmRecord.plain = Reference.table arrivals rules n ++
    (done.filter fun rule => decide (Reference.Fires arrivals rule n)).map fun rule =>
      Reference.row arrivals rule n n

theorem evaluateRule_evaluated (hids : (rules.map (·.id)).Nodup)
    (hmono : Chronological arrivals) {done rest : List AlarmRule} {rule : AlarmRule}
    (he : rules = done ++ rule :: rest) (h : Evaluated map catalogue arrivals rules n done w) :
    Evaluated map catalogue arrivals rules n (done ++ [rule])
      ((evaluateRule repo nowUtc (arrivals n).ctx ⟨map, InMemoryRuleStateStore.store⟩ rule).final
        sem w) := by
  have heffect := evaluateRule_effect repo map (arrivals n).ctx rule h.settled.calm.still
  obtain ⟨hdone, hrest⟩ := ids_ne_of_nodup he hids
  obtain ⟨hcells, halarms⟩ := heffect.round hmono h.settled.clock h.settled.calm
    (h.pending _ he rule (by simp))
  refine ⟨h.settled.final (writes_evaluateRule repo _ InMemoryRuleStateStore.footprint rule)
    (by simp) (by simp), ?_, ?_, ?_⟩
  · intro other hother
    rcases List.mem_append.mp hother with hother | hother
    · exact heffect.others (hdone other hother) (h.evaluated other hother)
    · rw [List.mem_singleton.mp hother]
      exact hcells
  · intro rest' he' other hother
    obtain rfl := rest_eq he he'
    exact heffect.others (hrest other hother) (h.pending _ he other (by simp [hother]))
  · rcases halarms with ⟨hfires, hrow⟩ | ⟨hfires, hsame⟩
    · rw [hrow, h.alarms]
      simp [List.filter_append, hfires]
    · rw [hsame, h.alarms]
      simp [List.filter_append, hfires]

-- The clear loop at arrival `n`: the rows of the rules `done` are up to date.
def clearBound (n : Nat) (done : List AlarmRule) (rule : AlarmRule) : Nat :=
  if rule.id ∈ done.map (·.id) then n + 1 else n

structure Cleared (map : Nat) (catalogue : String → List AlarmRule) (arrivals : Nat → Arrival)
    (rules : List AlarmRule) (n : Nat) (done : List AlarmRule) (w : World) : Prop where
  settled : Settled map catalogue (arrivals n) w
  cleared : ∀ rule ∈ done, Cells arrivals rule (n + 1) (n + 1) w
  pending : ∀ rest, rules = done ++ rest → ∀ rule ∈ rest, Cells arrivals rule (n + 1) n w
  alarms : w.tables.alarms.map AlarmRecord.plain = Reference.rows arrivals rules (clearBound n done)
    (n + 1)

theorem ClearEffect.alarms {ctx : TriggerContext} {rule : AlarmRule} {w' : World}
    (h : ClearEffect ctx rule w w') :
    w'.tables.alarms = w.tables.alarms.map (Reference.cleared rule ⟨w.clock, ctx⟩) := by
  cases h with
  | idle hnot halarms _ _ =>
      rw [halarms]
      refine (List.map_id'' (fun _ => rfl) _).symm.trans (List.map_congr_left fun row hrow => ?_)
      exact (if_neg fun hrow' => hnot ⟨hrow'.1, row, hrow, hrow'.2⟩).symm
  | cleared _ _ halarms _ _ => exact halarms

theorem resets_iff_open {rule : AlarmRule} (hrule : rule ∈ rules)
    (hsame : ∀ other ∈ rules, other.id = rule.id → other = rule) {bound : AlarmRule → Nat}
    (hbound : bound rule = n)
    (halarms : w.tables.alarms.map AlarmRecord.plain = Reference.rows arrivals rules bound
      (n + 1)) :
    Reference.Resets arrivals rule n ↔ Reference.clearHolds rule (arrivals n).ctx = true ∧
      ∃ row ∈ w.tables.alarms, Open (arrivals n).ctx rule row := by
  rw [Reference.resets_iff_open_row hrule hsame hbound, ← halarms]
  refine and_congr_right fun _ => ?_
  constructor
  · rintro ⟨record, hrecord, hopen⟩
    obtain ⟨row, hrow, rfl⟩ := List.mem_map.mp hrecord
    exact ⟨row, hrow, hopen⟩
  · rintro ⟨row, hrow, hopen⟩
    exact ⟨row.plain, List.mem_map_of_mem hrow, hopen⟩

-- The cells of the rule, by whether this arrival clears one of its alarms.
theorem ClearEffect.cells {rule : AlarmRule} {w' : World}
    (h : ClearEffect (arrivals n).ctx rule w w')
    (hresets : Reference.Resets arrivals rule n ↔ Reference.clearHolds rule (arrivals n).ctx =
      true ∧ ∃ row ∈ w.tables.alarms, Open (arrivals n).ctx rule row)
    (hcells : Cells arrivals rule (n + 1) n w) : Cells arrivals rule (n + 1) (n + 1) w' := by
  refine ⟨fun deviceId => by rw [h.frame.1]; exact hcells.dedup deviceId,
    fun htype hpos deviceId => ?_⟩
  have hcell := hcells.tracking htype hpos deviceId
  by_cases hdevice : (arrivals n).ctx.deviceId = deviceId
  · subst hdevice
    cases h with
    | idle hnot _ _ htracking =>
        rw [htracking]
        exact hcell.kept fun _ => mt hresets.mp hnot
    | cleared hholds hopen _ _ htracking =>
        rw [htracking, Function.update_self]
        exact Reference.FirstHeld.reset rfl (hresets.mpr ⟨hholds, hopen⟩)
  · rw [h.frame.2 _ fun he => hdevice (stateKey_inj.mp he).2.symm]
    exact hcell.kept fun he => absurd he hdevice

theorem Cleared.step (hids : (rules.map (·.id)).Nodup) {done rest : List AlarmRule}
    {rule : AlarmRule} (he : rules = done ++ rule :: rest)
    (h : Cleared map catalogue arrivals rules n done w) {w' : World}
    (hsettled : Settled map catalogue (arrivals n) w')
    (heffect : ClearEffect (arrivals n).ctx rule w w') :
    Cleared map catalogue arrivals rules n (done ++ [rule]) w' := by
  obtain ⟨hdone, hrest⟩ := ids_ne_of_nodup he hids
  have hrule : rule ∈ rules := by simp [he]
  have hsame (other : AlarmRule) (hother : other ∈ rules) (hid : other.id = rule.id) :
      other = rule :=
    List.inj_on_of_nodup_map hids hother hrule hid
  have hbound : clearBound n done rule = n := by
    refine if_neg fun hmem => ?_
    obtain ⟨other, hother, hid⟩ := List.mem_map.mp hmem
    exact hdone other hother hid
  refine ⟨hsettled, ?_, ?_, ?_⟩
  · intro other hother
    rcases List.mem_append.mp hother with hother | hother
    · exact heffect.others (hdone other hother) (h.cleared other hother)
    · rw [List.mem_singleton.mp hother]
      exact heffect.cells (resets_iff_open hrule hsame hbound h.alarms)
        (h.pending _ he rule (by simp))
  · intro rest' he' other hother
    obtain rfl := rest_eq he he'
    exact heffect.others (hrest other hother) (h.pending _ he other (by simp [hother]))
  · have hmap : (w.tables.alarms.map (Reference.cleared rule ⟨w.clock, (arrivals n).ctx⟩)).map
        AlarmRecord.plain =
        (w.tables.alarms.map AlarmRecord.plain).map (Reference.cleared rule (arrivals n)) := by
      simp only [List.map_map, h.settled.clock]
      exact List.map_congr_left fun row _ => plain_cleared _ row
    rw [heffect.alarms, hmap, h.alarms]
    refine Reference.map_cleared_rows hsame hbound (if_pos (by simp)) fun other _ hid => ?_
    simp [clearBound, hid]

-- Other contexts have no clear loop, and no clear condition holds of them.
theorem Cleared.skip (hids : (rules.map (·.id)).Nodup)
    (hkind : (arrivals n).ctx.triggerType ≠ .property)
    (h : Cleared map catalogue arrivals rules n [] w) (done rest : List AlarmRule)
    (he : rules = done ++ rest) :
    Cleared map catalogue arrivals rules n done w := by
  induction done using List.reverseRecOn generalizing rest with
  | nil => exact h
  | append_singleton done rule ih =>
      have he' : rules = done ++ rule :: rest := by simpa using he
      refine (ih (rule :: rest) he').step hids he' h.settled (.idle ?_ rfl rfl rfl)
      simp [Reference.clearHolds, hkind]

theorem clearLoop_cleared (hids : (rules.map (·.id)).Nodup)
    (h : Cleared map catalogue arrivals rules n [] w) :
    Cleared map catalogue arrivals rules n rules
      ((clearLoop ⟨map, InMemoryRuleStateStore.store⟩ (arrivals n).ctx rules).final sem w) := by
  unfold clearLoop
  split_ifs with hkind
  · have hwp : (Prog.forEach rules (clearRule (arrivals n).ctx ⟨map,
        InMemoryRuleStateStore.store⟩)).wp sem
        (fun _ _ w => Cleared map catalogue arrivals rules n rules w) [] w := by
      refine Prog.wp_forEach (fun done _ w => Cleared map catalogue arrivals rules n done w) rules
        (fun done rule rest he past w hw => ?_) h
      rw [Prog.wp_iff]
      refine hw.step hids he (hw.settled.final (writes_clearRule _
        InMemoryRuleStateStore.footprint rule) (by simp) (by simp)) ?_
      exact clearRule_effect hw.settled.calm hw.settled.fresh hkind
    exact (Prog.wp_iff _ _ _).mp hwp
  · exact h.skip hids hkind rules [] (by simp)

end Loops

section Process

variable (repo : AlarmRepo) (map : Nat) (arrivals : Nat → Arrival)

-- One arrival after the other, each with the clock at its instant.
def process (cache : RuleCache) (start : World) : Nat → World
  | 0 => start
  | n + 1 => (evaluateAndTrigger (arrivals n).ctx repo cache none).final sem
      ((process cache start n).arrive (arrivals n).instant)

variable {repo map arrivals} {catalogue : String → List AlarmRule} {rules : List AlarmRule}
  {n : Nat} {w : World}

-- What holds of the world when `n` arrivals have been processed.
structure Agrees (map : Nat) (catalogue : String → List AlarmRule) (arrivals : Nat → Arrival)
    (rules : List AlarmRule) (n : Nat) (w : World) : Prop where
  calm : w.Calm
  fresh : w.Fresh
  serves : Serves ⟨map, InMemoryRuleStateStore.store⟩ catalogue w
  cells : ∀ rule ∈ rules, Cells arrivals rule n n w
  alarms : w.tables.alarms.map AlarmRecord.plain = Reference.table arrivals rules n

theorem Agrees.load (h : Agrees map catalogue arrivals rules n w) :
    Evaluated map catalogue arrivals rules n []
      ((loadRules (arrivals n).ctx ⟨map, InMemoryRuleStateStore.store⟩).final sem
        (w.arrive (arrivals n).instant)) := by
  have hcalm : (w.arrive (arrivals n).instant).Calm := ⟨h.calm.still, h.calm.sqlUp⟩
  have hserves : Serves ⟨map, InMemoryRuleStateStore.store⟩ catalogue
      (w.arrive (arrivals n).instant) :=
    ⟨h.serves.cached, h.serves.stored⟩
  have hload := (Prog.wp_iff _ _ _).mp (loadRules_wp (fun _ _ => True) (fun _ _ _ _ _ => trivial)
    (arrivals n).ctx [] hserves trivial)
  have hwrites := writes_loadRules (arrivals n).ctx ⟨map, InMemoryRuleStateStore.store⟩
  have hdedup := hwrites.same .dedup (by simp) (w.arrive (arrivals n).instant)
  have htracking := hwrites.same .durationTracking (by simp) (w.arrive (arrivals n).instant)
  have halarms := hwrites.same .alarms (by simp) (w.arrive (arrivals n).instant)
  refine ⟨⟨hcalm.final _, hcalm.final_clock _, World.Fresh.final _ ⟨h.fresh.nodup, h.fresh.lt⟩,
    hload.1⟩, by simp, ?_, ?_⟩
  · intro rest he rule hrule
    exact (h.cells rule (by simpa [he] using hrule)).of_keys (fun _ => congrFun hdedup _)
      fun _ => congrFun htracking _
  · rw [halarms.1]
    simpa using h.alarms

variable (repo) in
theorem Evaluated.loop (hids : (rules.map (·.id)).Nodup) (hmono : Chronological arrivals)
    (h : Evaluated map catalogue arrivals rules n [] w) :
    Evaluated map catalogue arrivals rules n rules ((Prog.forEach rules (evaluateRule repo nowUtc
      (arrivals n).ctx ⟨map, InMemoryRuleStateStore.store⟩)).final sem w) := by
  have hwp : (Prog.forEach rules (evaluateRule repo nowUtc (arrivals n).ctx
      ⟨map, InMemoryRuleStateStore.store⟩)).wp sem
      (fun _ _ w => Evaluated map catalogue arrivals rules n rules w) [] w := by
    refine Prog.wp_forEach (fun done _ w => Evaluated map catalogue arrivals rules n done w) rules
      (fun done rule rest he past w hw => ?_) h
    rw [Prog.wp_iff]
    exact evaluateRule_evaluated hids hmono he hw
  exact (Prog.wp_iff _ _ _).mp hwp

theorem Evaluated.toCleared (h : Evaluated map catalogue arrivals rules n rules w) :
    Cleared map catalogue arrivals rules n [] w := by
  refine ⟨h.settled, by simp, ?_, ?_⟩
  · intro rest he rule hrule
    exact h.evaluated rule (by simpa [he] using hrule)
  · rw [h.alarms, Reference.table_eq_rows]
    simp [Reference.rows, List.range_succ, clearBound]

theorem Cleared.toAgrees (h : Cleared map catalogue arrivals rules n rules w) :
    Agrees map catalogue arrivals rules (n + 1) w := by
  refine ⟨h.settled.calm, h.settled.fresh, h.settled.serves, h.cleared, ?_⟩
  rw [h.alarms, Reference.table_eq_rows]
  refine Reference.rows_congr fun rule hrule => ?_
  exact if_pos (List.mem_map_of_mem hrule)

theorem Agrees.step {productId : String} (hids : ((catalogue productId).map (·.id)).Nodup)
    (hmono : Chronological arrivals) (hproduct : (arrivals n).ctx.productId = productId)
    (h : Agrees map catalogue arrivals (catalogue productId) n w) :
    Agrees map catalogue arrivals (catalogue productId) (n + 1)
      ((evaluateAndTrigger (arrivals n).ctx repo ⟨map, InMemoryRuleStateStore.store⟩ none).final sem
        (w.arrive (arrivals n).instant)) := by
  have hserves : Serves ⟨map, InMemoryRuleStateStore.store⟩ catalogue
      (w.arrive (arrivals n).instant) :=
    ⟨h.serves.cached, h.serves.stored⟩
  have hloaded := loadRules_run (arrivals n).ctx hserves h.calm.sqlUp
  rw [hproduct] at hloaded
  have hfinal := clearLoop_cleared hids (h.load.loop repo hids hmono).toCleared
  simp only [evaluateAndTrigger, Prog.bind_eq, Prog.final_bind, hloaded, evaluateRules,
    Option.getD_none]
  exact hfinal.toAgrees

theorem nodup_enabledRules {table : List AlarmRule} (h : (table.map (·.id)).Nodup)
    (productId : String) :
    ((enabledRules productId table).map (·.id)).Nodup := by
  have hfilter := h.sublist ((table.filter_sublist
    (p := fun rule => rule.productId == productId && rule.enabled)).map (·.id))
  exact ((List.perm_insertionSort _ _).map _).nodup_iff.mpr hfilter

-- The rule engine with the in-memory store computes the reference: after every number
-- of arrivals the alarm table is the one that the history of arrivals determines, up
-- to the ids and the webhook columns.
theorem process_refines_reference (repo : AlarmRepo) (map : Nat) (arrivals : Nat → Arrival)
    (start : World) (productId : String) (hstill : start.Still)
    (hup : ∀ n, start.sqlFaults n = none)
    (hcache : ∀ productId loaded, start.maps map productId = some loaded →
      loaded = enabledRules productId start.tables.rules)
    (hdedup : ∀ key, start.dedup key = none) (htracking : ∀ key, start.durationTracking key = none)
    (halarms : start.tables.alarms = []) (hids : (start.tables.rules.map (·.id)).Nodup)
    (hmono : Chronological arrivals) (hproduct : ∀ i, (arrivals i).ctx.productId = productId)
    (n : Nat) :
    (process repo arrivals ⟨map, InMemoryRuleStateStore.store⟩ start n).tables.alarms.map
      AlarmRecord.plain =
      Reference.table arrivals (enabledRules productId start.tables.rules) n := by
  have hagrees : ∀ n, Agrees map (fun productId => enabledRules productId start.tables.rules)
      arrivals (enabledRules productId start.tables.rules) n
      (process repo arrivals ⟨map, InMemoryRuleStateStore.store⟩ start n) := by
    intro n
    induction n with
    | zero =>
        refine ⟨⟨hstill, hup⟩, ⟨by simp [process, halarms], by simp [process, halarms]⟩,
          ⟨hcache, fun _ => rfl⟩, fun rule _ => ⟨fun deviceId => ?_, fun _ _ deviceId => ?_⟩, ?_⟩
        · rw [process, hdedup]
          exact Reference.LastFire.zero
        · rw [process, htracking]
          exact Reference.FirstHeld.zero
        · simp [process, halarms, Reference.table]
    | succ n ih => exact ih.step (nodup_enabledRules hids productId) hmono (hproduct n)
  exact (hagrees n).alarms

-- A rule that wants two minutes of heat, and a report every minute.
theorem process_refines_reference_hot :
    let tables := { Tables.empty with rules := [hotRule 1 5 2 none] }
    let arrivals := fun i : Nat => (⟨i * nanosPerMinute, temperature "d" 60⟩ : Arrival)
    let w := process ⟨3, 60⟩ arrivals ⟨0, InMemoryRuleStateStore.store⟩ (World.started tables) 4
    w.tables.alarms.map AlarmRecord.plain = Reference.table arrivals (enabledRules "p" tables.rules)
      4 ∧ w.tables.alarms.map (·.createdAt) = [2 * nanosPerMinute] := by
  refine ⟨process_refines_reference ⟨3, 60⟩ 0 _ (World.started _) "p" (fun _ => rfl) (fun _ => rfl)
    (by simp) (fun _ => rfl) (fun _ => rfl) rfl (by simp) ?_ (fun _ => rfl) 4, by decide +kernel⟩
  intro i j hij
  simp only [nanosPerMinute, nanosPerSecond]
  lia

end Process

end RmqttThings.RuleEngine
