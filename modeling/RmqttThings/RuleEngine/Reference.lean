import RmqttThings.RuleEngine.Runs

namespace RmqttThings.RuleEngine

open Effects

-- A trigger context and the instant at which it is processed.
structure Arrival where
  instant : OffsetDateTime
  ctx : TriggerContext

-- The clock of the arrivals does not go back.
def Chronological (arrivals : Nat → Arrival) : Prop :=
  ∀ i j, i ≤ j → (arrivals i).instant ≤ (arrivals j).instant

-- What the rule engine is for, said of the whole history of arrivals: which of them
-- fire which rule, and when the alarms are cleared.
namespace Reference

-- What a context says of the property of a rule: `trigger_value[property_name]`, unwrapped
-- once when it is an object with a "value".
def propertyValue (ctx : TriggerContext) (rule : AlarmRule) : Option Json :=
  match rule.triggerConfig.get "property_name" with
  | some (.string propertyName) =>
      match ctx.triggerValue.get propertyName with
      | some given =>
          match given.get "value" with
          | some inner => some inner
          | none => some given
      | none => none
  | _ => none

def eventValue (ctx : TriggerContext) (rule : AlarmRule) : Option Json :=
  match rule.triggerConfig.get "event_identifier" with
  | some (.string eventIdentifier) => ctx.triggerValue.get eventIdentifier
  | _ => none

-- A context is read by the rules of its trigger type, and ignored by the others.
def value (ctx : TriggerContext) (rule : AlarmRule) : Option Json :=
  match ctx.triggerType with
  | .property => if rule.triggerType = "property" then propertyValue ctx rule else none
  | .event => if rule.triggerType = "event" then eventValue ctx rule else none
  | .deviceOnline => if rule.triggerType = "device_online" then some .null else none
  | .deviceOffline => if rule.triggerType = "device_offline" then some .null else none

-- The condition of the rule is true of the value that it reads; or false.
def Holds (rule : AlarmRule) (ctx : TriggerContext) : Prop :=
  ∃ actual, value ctx rule = some actual ∧ RuleEvaluator.evaluate rule.condition actual = true

def Breaks (rule : AlarmRule) (ctx : TriggerContext) : Prop :=
  ∃ actual, value ctx rule = some actual ∧ RuleEvaluator.evaluate rule.condition actual = false

def clearHolds (rule : AlarmRule) (ctx : TriggerContext) : Bool :=
  decide (ctx.triggerType = .property) && decide (rule.triggerType = "property") &&
    match rule.clearCondition, propertyValue ctx rule with
    | some clearCondition, some actual => RuleEvaluator.evaluate clearCondition actual
    | _, _ => false

section Values

variable (ctx : TriggerContext) (rule : AlarmRule)

-- The engine reads the same values.
theorem propertyValue_eq :
    rule.propertyName.bind (extractPropertyValue ctx.triggerValue) = propertyValue ctx rule := by
  unfold AlarmRule.propertyName propertyValue
  cases rule.triggerConfig.get "property_name" with
  | none => rfl
  | some name =>
      cases name with
      | string propertyName =>
          simp only [Option.bind_some, Json.asStr, extractPropertyValue]
          cases ctx.triggerValue.get propertyName with
          | none => rfl
          | some given => cases hinner : given.get "value" <;> simp [hinner]
      | _ => rfl

theorem eventValue_eq : rule.eventIdentifier.bind ctx.triggerValue.get = eventValue ctx rule := by
  unfold AlarmRule.eventIdentifier eventValue
  cases rule.triggerConfig.get "event_identifier" with
  | none => rfl
  | some identifier => cases identifier <;> rfl

theorem actualValue_eq : actualValue ctx rule = value ctx rule := by
  have hother (hne : rule.triggerType ≠ ctx.triggerType.asStr) : actualValue ctx rule = none := by
    unfold actualValue
    cases hkind : TriggerType.fromStr rule.triggerType with
    | none => rfl
    | some kind =>
        refine if_pos fun he => hne ?_
        rw [(TriggerType.fromStr_eq_some_iff _ _).mp hkind, he]
  by_cases hsame : rule.triggerType = ctx.triggerType.asStr
  · have hkind := (TriggerType.fromStr_eq_some_iff _ _).mpr hsame
    simp only [actualValue, hkind, ne_eq, not_true_eq_false, if_false, value]
    cases htype : ctx.triggerType with
    | property => simpa [hsame, htype, TriggerType.asStr] using propertyValue_eq ctx rule
    | event => simpa [hsame, htype, TriggerType.asStr] using eventValue_eq ctx rule
    | deviceOnline => simp [hsame, htype, TriggerType.asStr]
    | deviceOffline => simp [hsame, htype, TriggerType.asStr]
  · rw [hother hsame, value]
    cases htype : ctx.triggerType with
    | property => exact (if_neg fun he => hsame (by rw [he, htype]; rfl)).symm
    | event => exact (if_neg fun he => hsame (by rw [he, htype]; rfl)).symm
    | deviceOnline => exact (if_neg fun he => hsame (by rw [he, htype]; rfl)).symm
    | deviceOffline => exact (if_neg fun he => hsame (by rw [he, htype]; rfl)).symm

theorem holds_iff : Holds rule ctx ↔ Satisfies rule ctx := by
  simp only [Holds, Satisfies, actualValue_eq]

theorem breaks_iff : Breaks rule ctx ↔ Fails rule ctx := by
  simp only [Breaks, Fails, actualValue_eq]

-- A property rule with a duration tracks the contexts that it reads.
theorem tracks_iff (h : Satisfies rule ctx) :
    (rule.triggerType = "property" ∧ 0 < rule.durationMinutes.toInt) ↔ tracksDuration ctx rule =
      true := by
  obtain ⟨actual, hactual, -⟩ := h
  rw [tracksDuration, Bool.and_eq_true, decide_eq_true_eq, decide_eq_true_eq]
  refine and_congr_left fun _ => ?_
  unfold actualValue at hactual
  split at hactual
  · cases hactual
  · rename_i kind hkind
    split_ifs at hactual with hne
    rw [(TriggerType.fromStr_eq_some_iff _ _).mp hkind, not_not.mp hne]
    cases ctx.triggerType <;> simp [TriggerType.asStr]

end Values

section Rule

variable (arrivals : Nat → Arrival) (rule : AlarmRule)

abbrev device (i : Nat) : String := (arrivals i).ctx.deviceId

abbrev minutesBetween (j i : Nat) : Int :=
  wholeMinutes ((arrivals i).instant - (arrivals j).instant)

-- Arrival `i` fires the rule. For a property rule with a duration, an earlier arrival of the
-- device has satisfied the condition for long enough: none since then has failed it, and no
-- clear of one of the rule's alarms has started the tracking over. With a throttle, the rule
-- has not fired for the device in the window before.
def Fires (i : Nat) : Prop :=
  Holds rule (arrivals i).ctx ∧
  (rule.triggerType = "property" ∧ 0 < rule.durationMinutes.toInt →
    ∃ j, j < i ∧ device arrivals j = device arrivals i ∧
      rule.durationMinutes.toInt ≤ minutesBetween arrivals j i ∧ Holds rule (arrivals j).ctx ∧
      (∀ k, j ≤ k → k ≤ i → device arrivals k = device arrivals i → ¬Breaks rule (arrivals k).ctx) ∧
      ∀ k, j ≤ k → k < i → device arrivals k = device arrivals i →
        ¬(clearHolds rule (arrivals k).ctx = true ∧ ∃ (l : Nat) (_ : l ≤ k), device arrivals l =
          device arrivals k ∧ Fires l ∧ ∀ m, l ≤ m → m < k → device arrivals m = device arrivals k →
            clearHolds rule (arrivals m).ctx = false)) ∧
  ¬(0 < rule.throttleMinutes.toInt ∧ ∃ (j : Nat) (_ : j < i), device arrivals j =
    device arrivals i ∧ Fires j ∧ minutesBetween arrivals j i < rule.throttleMinutes.toInt)
termination_by i

-- Arrival `k` clears an alarm of the rule that has been raised for the device and not
-- been cleared yet.
def Resets (k : Nat) : Prop :=
  clearHolds rule (arrivals k).ctx = true ∧ ∃ l, l ≤ k ∧ device arrivals l = device arrivals k ∧
    Fires arrivals rule l ∧ ∀ m, l ≤ m → m < k → device arrivals m = device arrivals k →
      clearHolds rule (arrivals m).ctx = false

-- The same in the words of the engine.
theorem fires_iff (i : Nat) :
    Fires arrivals rule i ↔ Satisfies rule (arrivals i).ctx ∧
      (tracksDuration (arrivals i).ctx rule = true → ∃ j, j < i ∧ device arrivals j =
        device arrivals i ∧
        rule.durationMinutes.toInt ≤ minutesBetween arrivals j i ∧ Satisfies rule (arrivals j).ctx ∧
        (∀ k, j ≤ k → k ≤ i → device arrivals k = device arrivals i →
          ¬Fails rule (arrivals k).ctx) ∧
        ∀ k, j ≤ k → k < i → device arrivals k = device arrivals i → ¬Resets arrivals rule k) ∧
      ¬(0 < rule.throttleMinutes.toInt ∧ ∃ j, j < i ∧ device arrivals j = device arrivals i ∧
        Fires arrivals rule j ∧ minutesBetween arrivals j i < rule.throttleMinutes.toInt) := by
  rw [Fires]
  simp only [Resets, exists_prop, holds_iff, breaks_iff]
  exact and_congr_right fun hsatisfies => and_congr_left fun _ =>
    imp_congr_left (tracks_iff _ rule hsatisfies)

-- The instant at which an alarm raised by arrival `j` is cleared, if that is by one
-- of the first `n` arrivals.
def clearedAt (j n : Nat) : Option OffsetDateTime :=
  ((List.range n).find? fun l => decide (j ≤ l) && decide (device arrivals l = device arrivals j) &&
    clearHolds rule (arrivals l).ctx).map fun l => (arrivals l).instant

-- The alarm that arrival `j` raises, as it stands after `n` arrivals.
def row (j n : Nat) : AlarmRecord :=
  let raised := (newAlarm (parseActions (rule.actions.asArray.getD [])) (arrivals j).ctx rule.id
    rule.name).toRecord 0 (arrivals j).instant
  match clearedAt arrivals rule j n with
  | some instant => raised.clearedNow instant
  | none => raised

end Rule

open Classical in
-- The alarm table after `n` arrivals, in the order of the arrivals and the rules.
noncomputable def table (arrivals : Nat → Arrival) (rules : List AlarmRule) (n : Nat) :
    List AlarmRecord :=
  (List.range n).flatMap fun j =>
    (rules.filter fun rule => decide (Fires arrivals rule j)).map fun rule => row arrivals rule j n

section State

-- What the two cells of a rule and device have to say about the history.

variable (arrivals : Nat → Arrival) (rule : AlarmRule) (deviceId : String)

-- The dedup cell holds the instant of the last of the firings before `n`.
def LastFire (n : Nat) (cell : Option OffsetDateTime) : Prop :=
  (∀ t, cell = some t → ∃ j, j < n ∧ device arrivals j = deviceId ∧ Fires arrivals rule j ∧
    (arrivals j).instant = t) ∧
  ∀ j, j < n → device arrivals j = deviceId → Fires arrivals rule j →
    ∃ t, cell = some t ∧ (arrivals j).instant ≤ t

-- The condition has held since arrival `j`, where the arrivals before `n` have been
-- evaluated and those before `c` have also been through the clear loop.
structure HoldsSince (n c j : Nat) : Prop where
  lt : j < n
  device : device arrivals j = deviceId
  satisfies : Satisfies rule (arrivals j).ctx
  notFailed : ∀ k, j ≤ k → k < n → Reference.device arrivals k = deviceId →
    ¬Fails rule (arrivals k).ctx
  notReset : ∀ k, j ≤ k → k < c → Reference.device arrivals k = deviceId → ¬Resets arrivals rule k

-- The tracking cell holds the instant of the first arrival since which it has held.
def FirstHeld (n c : Nat) (cell : Option OffsetDateTime) : Prop :=
  (∀ t, cell = some t → ∃ j, HoldsSince arrivals rule deviceId n c j ∧ (arrivals j).instant = t) ∧
  ∀ j, HoldsSince arrivals rule deviceId n c j → ∃ t, cell = some t ∧ t ≤ (arrivals j).instant

variable {arrivals rule deviceId} {n : Nat} {cell : Option OffsetDateTime}

namespace LastFire

theorem zero : LastFire arrivals rule deviceId 0 none := ⟨by simp, by simp⟩

theorem fired (hmono : Chronological arrivals) (hdevice : device arrivals n = deviceId)
    (hfires : Fires arrivals rule n) :
    LastFire arrivals rule deviceId (n + 1) (some (arrivals n).instant) := by
  constructor
  · intro t ht
    exact ⟨n, by omega, hdevice, hfires, by simpa using ht⟩
  · intro j hj _ _
    exact ⟨_, rfl, hmono _ _ (by omega)⟩

theorem skipped (h : LastFire arrivals rule deviceId n cell)
    (hnot : device arrivals n = deviceId → ¬Fires arrivals rule n) :
    LastFire arrivals rule deviceId (n + 1) cell := by
  constructor
  · intro t ht
    obtain ⟨j, hj, hrest⟩ := h.1 t ht
    exact ⟨j, by omega, hrest⟩
  · intro j hj hdevice hfires
    rcases Nat.lt_succ_iff_lt_or_eq.mp hj with hlt | rfl
    · exact h.2 j hlt hdevice hfires
    · exact absurd hfires (hnot hdevice)

theorem recent_iff (h : LastFire arrivals rule (device arrivals n) n cell)
    (hpos : 0 < rule.throttleMinutes.toInt) :
    (∃ t, cell = some t ∧ wholeMinutes ((arrivals n).instant - t) < rule.throttleMinutes.toInt) ↔
      ∃ j, j < n ∧ device arrivals j = device arrivals n ∧ Fires arrivals rule j ∧
        minutesBetween arrivals j n < rule.throttleMinutes.toInt := by
  constructor
  · rintro ⟨t, ht, hrecent⟩
    obtain ⟨j, hj, hdevice, hfires, rfl⟩ := h.1 t ht
    exact ⟨j, hj, hdevice, hfires, hrecent⟩
  · rintro ⟨j, hj, hdevice, hfires, hrecent⟩
    obtain ⟨t, ht, hle⟩ := h.2 j hj hdevice hfires
    exact ⟨t, ht, wholeMinutes_lt_of_le hpos (by lia) hrecent⟩

end LastFire

namespace FirstHeld

theorem zero : FirstHeld arrivals rule deviceId 0 0 none := by
  refine ⟨by simp, fun j h => ?_⟩
  exact absurd h.lt (by omega)

-- An arrival of another device, or one that does not carry the value.
theorem ignored (h : FirstHeld arrivals rule deviceId n n cell)
    (hnot : device arrivals n = deviceId → ¬Satisfies rule (arrivals n).ctx ∧
      ¬Fails rule (arrivals n).ctx) :
    FirstHeld arrivals rule deviceId (n + 1) n cell := by
  constructor
  · intro t ht
    obtain ⟨j, hj, hinstant⟩ := h.1 t ht
    refine ⟨j, ⟨by have := hj.lt; omega, hj.device, hj.satisfies, fun k hjk hk hdevice => ?_,
      hj.notReset⟩, hinstant⟩
    rcases Nat.lt_succ_iff_lt_or_eq.mp hk with hlt | rfl
    · exact hj.notFailed k hjk hlt hdevice
    · exact (hnot hdevice).2
  · intro j hj
    have hlt : j < n := by
      rcases Nat.lt_succ_iff_lt_or_eq.mp hj.lt with hlt | rfl
      · exact hlt
      · exact absurd hj.satisfies (hnot hj.device).1
    exact h.2 j ⟨hlt, hj.device, hj.satisfies, fun k hjk hk => hj.notFailed k hjk (by omega),
      hj.notReset⟩

theorem failed (hdevice : device arrivals n = deviceId) (hfails : Fails rule (arrivals n).ctx) :
    FirstHeld arrivals rule deviceId (n + 1) n none := by
  refine ⟨by simp, fun j hj => ?_⟩
  exact absurd hfails (hj.notFailed n (by have := hj.lt; omega) (by omega) hdevice)

theorem started (h : FirstHeld arrivals rule deviceId n n none)
    (hdevice : device arrivals n = deviceId) (hsatisfies : Satisfies rule (arrivals n).ctx) :
    FirstHeld arrivals rule deviceId (n + 1) n (some (arrivals n).instant) := by
  constructor
  · intro t ht
    refine ⟨n, ⟨by omega, hdevice, hsatisfies, fun k hnk hk _ => ?_, fun k hnk hk => by omega⟩,
      by simpa using ht⟩
    obtain rfl : k = n := by omega
    exact hsatisfies.not_fails
  · intro j hj
    rcases Nat.lt_succ_iff_lt_or_eq.mp hj.lt with hlt | rfl
    · obtain ⟨t, ht, -⟩ := h.2 j
        ⟨hlt, hj.device, hj.satisfies, fun k hjk hk => hj.notFailed k hjk (by omega), hj.notReset⟩
      cases ht
    · exact ⟨_, rfl, le_rfl⟩

theorem continued {t : OffsetDateTime} (hmono : Chronological arrivals)
    (h : FirstHeld arrivals rule deviceId n n (some t))
    (hsatisfies : Satisfies rule (arrivals n).ctx) :
    FirstHeld arrivals rule deviceId (n + 1) n (some t) := by
  obtain ⟨first, hfirst, hinstant⟩ := h.1 t rfl
  have hlt := hfirst.lt
  constructor
  · intro t' ht'
    refine ⟨first, ⟨by omega, hfirst.device, hfirst.satisfies, fun k hjk hk hdevice => ?_,
      hfirst.notReset⟩, hinstant.trans (by simpa using ht')⟩
    rcases Nat.lt_succ_iff_lt_or_eq.mp hk with hlt | rfl
    · exact hfirst.notFailed k hjk hlt hdevice
    · exact hsatisfies.not_fails
  · intro j hj
    rcases Nat.lt_succ_iff_lt_or_eq.mp hj.lt with hjn | rfl
    · exact h.2 j ⟨hjn, hj.device, hj.satisfies, fun k hjk hk => hj.notFailed k hjk (by omega),
        hj.notReset⟩
    · exact ⟨t, rfl, hinstant ▸ hmono _ _ (by omega)⟩

theorem reset (hdevice : device arrivals n = deviceId) (hresets : Resets arrivals rule n) :
    FirstHeld arrivals rule deviceId (n + 1) (n + 1) none := by
  refine ⟨by simp, fun j hj => ?_⟩
  exact absurd hresets (hj.notReset n (by have := hj.lt; omega) (by omega) hdevice)

theorem kept (h : FirstHeld arrivals rule deviceId (n + 1) n cell)
    (hnot : device arrivals n = deviceId → ¬Resets arrivals rule n) :
    FirstHeld arrivals rule deviceId (n + 1) (n + 1) cell := by
  constructor
  · intro t ht
    obtain ⟨j, hj, hinstant⟩ := h.1 t ht
    refine ⟨j, ⟨hj.lt, hj.device, hj.satisfies, hj.notFailed, fun k hjk hk hdevice => ?_⟩, hinstant⟩
    rcases Nat.lt_succ_iff_lt_or_eq.mp hk with hlt | rfl
    · exact hj.notReset k hjk hlt hdevice
    · exact hnot hdevice
  · intro j hj
    exact h.2 j ⟨hj.lt, hj.device, hj.satisfies, hj.notFailed,
      fun k hjk hk => hj.notReset k hjk (by omega)⟩

theorem met_iff (h : FirstHeld arrivals rule (device arrivals n) n n cell)
    (hpos : 0 < rule.durationMinutes.toInt) (hsatisfies : Satisfies rule (arrivals n).ctx) :
    (∃ t, cell = some t ∧ rule.durationMinutes.toInt ≤ wholeMinutes ((arrivals n).instant - t)) ↔
      ∃ j, j < n ∧ device arrivals j = device arrivals n ∧
        rule.durationMinutes.toInt ≤ minutesBetween arrivals j n ∧ Satisfies rule (arrivals j).ctx ∧
        (∀ k, j ≤ k → k ≤ n → device arrivals k = device arrivals n →
          ¬Fails rule (arrivals k).ctx) ∧
        ∀ k, j ≤ k → k < n → device arrivals k = device arrivals n → ¬Resets arrivals rule k := by
  constructor
  · rintro ⟨t, ht, hle⟩
    obtain ⟨j, hj, rfl⟩ := h.1 t ht
    refine ⟨j, hj.lt, hj.device, hle, hj.satisfies, fun k hjk hk hdevice => ?_, hj.notReset⟩
    rcases Nat.lt_or_eq_of_le hk with hlt | rfl
    · exact hj.notFailed k hjk hlt hdevice
    · exact hsatisfies.not_fails
  · rintro ⟨j, hj, hdevice, hle, hsat, hfailed, hreset⟩
    obtain ⟨t, ht, htj⟩ :=
      h.2 j ⟨hj, hdevice, hsat, fun k hjk hk => hfailed k hjk (by omega), hreset⟩
    refine ⟨t, ht, ?_⟩
    rw [le_wholeMinutes_iff hpos] at hle ⊢
    lia

end FirstHeld

-- The decision that the two cells give is the one of the reference.
theorem fires_iff_cells {dedup tracking : Option OffsetDateTime}
    (hdedup : LastFire arrivals rule (device arrivals n) n dedup)
    (htracking : Satisfies rule (arrivals n).ctx → tracksDuration (arrivals n).ctx rule = true →
      FirstHeld arrivals rule (device arrivals n) n n tracking) :
    Fires arrivals rule n ↔ Satisfies rule (arrivals n).ctx ∧
      (tracksDuration (arrivals n).ctx rule = true → ∃ t, tracking = some t ∧
        rule.durationMinutes.toInt ≤ wholeMinutes ((arrivals n).instant - t)) ∧
      ¬(0 < rule.throttleMinutes.toInt ∧ ∃ t, dedup = some t ∧
        wholeMinutes ((arrivals n).instant - t) < rule.throttleMinutes.toInt) := by
  rw [fires_iff]
  refine and_congr_right fun hsatisfies => and_congr ?_ ?_
  · refine forall_congr' fun htracks => ?_
    have hpos : 0 < rule.durationMinutes.toInt := by
      simp only [tracksDuration, Bool.and_eq_true, decide_eq_true_eq] at htracks
      exact htracks.2
    exact ((htracking hsatisfies htracks).met_iff hpos hsatisfies).symm
  · refine not_congr (and_congr_right fun hpos => ?_)
    exact (hdedup.recent_iff hpos).symm

end State

section Rows

-- How the table changes with one more arrival.

variable {arrivals : Nat → Arrival} {rule : AlarmRule} {j n : Nat}

theorem clearedAt_succ :
    clearedAt arrivals rule j (n + 1) = (clearedAt arrivals rule j n).or
      (if j ≤ n ∧ device arrivals n = device arrivals j ∧ clearHolds rule (arrivals n).ctx =
        true then
        some (arrivals n).instant else none) := by
  simp only [clearedAt, List.range_succ, List.find?_append]
  cases hfind : (List.range n).find? fun l => decide (j ≤ l) &&
      decide (device arrivals l = device arrivals j) && clearHolds rule (arrivals l).ctx with
  | some l => simp
  | none =>
      simp only [Option.none_or, Option.map_none, List.find?_cons, List.find?_nil]
      split_ifs with h
      · simp [h]
      · have hfalse : (decide (j ≤ n) && decide (device arrivals n = device arrivals j) &&
            clearHolds rule (arrivals n).ctx) = false := by
          by_contra hne
          simp only [Bool.not_eq_false, Bool.and_eq_true, decide_eq_true_eq] at hne
          exact h ⟨hne.1.1, hne.1.2, hne.2⟩
        simp [hfalse]

theorem clearedAt_eq_none_iff :
    clearedAt arrivals rule j n = none ↔ ∀ m, j ≤ m → m < n →
      device arrivals m = device arrivals j → clearHolds rule (arrivals m).ctx = false := by
  simp only [clearedAt, Option.map_eq_none_iff, List.find?_eq_none, List.mem_range,
    Bool.and_eq_true, decide_eq_true_eq, not_and, Bool.not_eq_true]
  exact ⟨fun h m hjm hm hdevice => h m hm ⟨hjm, hdevice⟩, fun h m hm hjm => h m hjm.1 hm hjm.2⟩

@[simp] theorem row_ruleId : (row arrivals rule j n).ruleId = rule.id := by
  simp only [row]
  split <;> rfl

@[simp] theorem row_deviceId : (row arrivals rule j n).deviceId = device arrivals j := by
  simp only [row]
  split <;> rfl

theorem row_status :
    (row arrivals rule j n).status = .cleared ↔ clearedAt arrivals rule j n ≠ none := by
  simp only [row]
  split
  · rename_i h
    simp [h, AlarmRecord.clearedNow]
  · rename_i h
    simp [h, NewAlarm.toRecord]

theorem row_self : row arrivals rule j j = (newAlarm (parseActions (rule.actions.asArray.getD []))
    (arrivals j).ctx rule.id rule.name).toRecord 0 (arrivals j).instant := by
  have hnone : clearedAt arrivals rule j j = none :=
    clearedAt_eq_none_iff.mpr fun m hjm hm => absurd hm (by omega)
  simp only [row, hnone]

-- What the clear loop does to a row when it comes to the rule.
def cleared (rule : AlarmRule) (arrival : Arrival) (record : AlarmRecord) : AlarmRecord :=
  if clearHolds rule arrival.ctx = true ∧ record.ruleId = rule.id ∧
      record.deviceId = arrival.ctx.deviceId ∧ record.status ≠ .cleared then
    record.clearedNow arrival.instant
  else record

theorem row_succ (hj : j ≤ n) :
    row arrivals rule j (n + 1) = cleared rule (arrivals n) (row arrivals rule j n) := by
  simp only [cleared, row_ruleId, row_deviceId, true_and]
  cases hcleared : clearedAt arrivals rule j n with
  | some instant =>
      have hstatus : (row arrivals rule j n).status = .cleared :=
        row_status.mpr (by simp [hcleared])
      rw [if_neg (by simp [hstatus])]
      simp only [row, clearedAt_succ, hcleared, Option.some_or]
  | none =>
      have hstatus : (row arrivals rule j n).status ≠ .cleared := fun h => row_status.mp h hcleared
      by_cases h : clearHolds rule (arrivals n).ctx = true ∧ device arrivals j = device arrivals n
      · have hsucc : clearedAt arrivals rule j (n + 1) = some (arrivals n).instant := by
          rw [clearedAt_succ, hcleared, Option.none_or, if_pos ⟨hj, h.2.symm, h.1⟩]
        rw [if_pos ⟨h.1, h.2, hstatus⟩]
        simp only [row, hsucc, hcleared]
      · have hsucc : clearedAt arrivals rule j (n + 1) = none := by
          rw [clearedAt_succ, hcleared, Option.none_or, if_neg fun h' => h ⟨h'.2.2, h'.2.1.symm⟩]
        rw [if_neg fun h' => h ⟨h'.1, h'.2.1⟩]
        simp only [row, hsucc, hcleared]

theorem cleared_of_ne {other : AlarmRule} (h : other.id ≠ rule.id) (arrival : Arrival) (m : Nat) :
    cleared rule arrival (row arrivals other j m) = row arrivals other j m := by
  simp [cleared, h]

end Rows

section Table

variable {arrivals : Nat → Arrival} {rules : List AlarmRule} {n : Nat}

open Classical in
-- The rows of the first `n` arrivals, each rule's as they stand after `bound` of it.
noncomputable def rows (arrivals : Nat → Arrival) (rules : List AlarmRule) (bound : AlarmRule → Nat)
    (n : Nat) :
    List AlarmRecord :=
  (List.range n).flatMap fun j =>
    (rules.filter fun rule => decide (Fires arrivals rule j)).map fun rule => row arrivals rule j
      (bound rule)

theorem table_eq_rows : table arrivals rules n = rows arrivals rules (fun _ => n) n := rfl

theorem mem_rows {bound : AlarmRule → Nat} {record : AlarmRecord} :
    record ∈ rows arrivals rules bound n ↔ ∃ j, j < n ∧ ∃ rule ∈ rules, Fires arrivals rule j ∧
      row arrivals rule j (bound rule) = record := by
  simp [rows, List.mem_flatMap, and_assoc]

theorem rows_congr {bound bound' : AlarmRule → Nat} (h : ∀ rule ∈ rules, bound rule = bound' rule) :
    rows arrivals rules bound n = rows arrivals rules bound' n := by
  refine List.flatMap_congr fun j _ => List.map_congr_left fun rule hmem => ?_
  rw [h rule (List.mem_filter.mp hmem).1]

-- The clear loop coming to `rule` brings its rows up to date.
theorem map_cleared_rows {bound bound' : AlarmRule → Nat} {rule : AlarmRule}
    (hsame : ∀ other ∈ rules, other.id = rule.id → other = rule) (hbound : bound rule = n)
    (hbound' : bound' rule = n + 1) (hother : ∀ other ∈ rules, other.id ≠ rule.id → bound' other =
      bound other) :
    (rows arrivals rules bound (n + 1)).map (cleared rule (arrivals n)) =
      rows arrivals rules bound' (n + 1) := by
  simp only [rows, List.map_flatMap, List.map_map]
  refine List.flatMap_congr fun j hj => List.map_congr_left fun other hmem => ?_
  have hj := List.mem_range.mp hj
  have hrules := (List.mem_filter.mp hmem).1
  by_cases hid : other.id = rule.id
  · obtain rfl := hsame other hrules hid
    simp only [Function.comp_apply, hbound, hbound']
    exact (row_succ (by omega)).symm
  · simp only [Function.comp_apply, hother other hrules hid]
    exact cleared_of_ne hid _ _

-- An alarm of the rule and device is open exactly when there is something to reset.
theorem resets_iff_open_row {bound : AlarmRule → Nat} {rule : AlarmRule} (hrule : rule ∈ rules)
    (hsame : ∀ other ∈ rules, other.id = rule.id → other = rule) (hbound : bound rule = n) :
    Resets arrivals rule n ↔ clearHolds rule (arrivals n).ctx = true ∧
      ∃ record ∈ rows arrivals rules bound (n + 1), record.ruleId = rule.id ∧
        record.deviceId = device arrivals n ∧ record.status ≠ .cleared := by
  refine and_congr_right fun _ => ?_
  constructor
  · rintro ⟨l, hl, hdevice, hfires, hopen⟩
    refine ⟨row arrivals rule l n, mem_rows.mpr ⟨l, by omega, rule, hrule, hfires, by rw [hbound]⟩,
      row_ruleId, row_deviceId.trans hdevice, fun hstatus => row_status.mp hstatus ?_⟩
    refine clearedAt_eq_none_iff.mpr fun m hlm hm hmdevice =>
      hopen m hlm hm (hmdevice.trans hdevice)
  · rintro ⟨record, hmem, hid, hdevice, hstatus⟩
    obtain ⟨l, hl, other, hother, hfires, rfl⟩ := mem_rows.mp hmem
    obtain rfl := hsame other hother (row_ruleId.symm.trans hid)
    rw [row_deviceId] at hdevice
    refine ⟨l, by omega, hdevice, hfires, fun m hlm hm hmdevice => ?_⟩
    have hnone : clearedAt arrivals other l n = none := by
      rw [← hbound]
      exact not_not.mp (mt row_status.mpr hstatus)
    exact clearedAt_eq_none_iff.mp hnone m hlm hm (hmdevice.trans hdevice.symm)

end Table

end Reference

end RmqttThings.RuleEngine
