import RmqttThings.Devices.LatestProperties

namespace RmqttThings.Devices

open Commands (PropertyLatest reportedMap reported_latestRow)
open Shadow

-- The column holds a `value` and a `time` under every key, as every report leaves it.
def StoredShape (row : Option PropertyLatest) : Prop :=
  ∀ found, row = some found → ∃ properties : JsonMap, found.properties = properties.toJson ∧
    ∀ key obj, properties.get key = some obj → ∃ time value, obj = (stamped time (key, value)).2

theorem StoredShape.holdsObject {row : Option PropertyLatest} (h : StoredShape row) :
    HoldsObject row := by
  intro found hfound
  obtain ⟨properties, hproperties, -⟩ := h found hfound
  exact ⟨properties, hproperties⟩

theorem StoredShape.get {row : Option PropertyLatest} (h : StoredShape row) {key : String}
    {obj : Json} (hobj : (reportedMap row).get key = some obj) :
    ∃ time value, obj = (stamped time (key, value)).2 := by
  cases row with
  | none => cases hobj
  | some found =>
      obtain ⟨properties, hproperties, hshape⟩ := h found rfl
      have hmap : reportedMap (some found) = properties := by
        simp [reportedMap, Commands.objectOrDefault, hproperties]
      rw [hmap] at hobj
      exact hshape key obj hobj

section Write

variable {rfc3339 : OffsetDateTime → String} {row : Option PropertyLatest} {desired : JsonMap}

theorem reported_write (h : StoredShape row) (report : PropertyReport) :
    Reported (rfc3339 report.timestamp) report.properties (reportedMap row)
      (reportedMap (report.write rfc3339 row)) :=
  reported_latestRow h.holdsObject report.productId report.deviceId report.properties
    (rfc3339 report.timestamp) report.timestamp

theorem storedShape_write (h : StoredShape row) (report : PropertyReport) :
    StoredShape (report.write rfc3339 row) := by
  intro found hfound
  obtain ⟨properties, hproperties⟩ := holdsObject_write h.holdsObject report found hfound
  have hmap : reportedMap (report.write rfc3339 row) = properties := by
    simp [reportedMap, Commands.objectOrDefault, hfound, hproperties]
  refine ⟨properties, hproperties, ?_⟩
  intro key obj hobj
  rw [← hmap, reported_write h report key, Option.or_eq_some_iff] at hobj
  rcases hobj with hnew | ⟨-, hold⟩
  · obtain ⟨value, -, rfl⟩ := Option.map_eq_some_iff.mp hnew
    exact ⟨_, value, rfl⟩
  · exact h.get hold

-- Nothing that is desired diverges.
theorem isEmpty_computeDelta_iff {reported : JsonMap} :
    (computeDelta desired reported).isEmpty = true ↔
      ∀ key value, desired.get key = some value → value.isNull = false →
        diverged reported key value = false := by
  rw [JsonMap.isEmpty_iff]
  constructor
  · intro h key value hvalue hnull
    by_contra hdiverged
    have hsome := get_computeDelta_some.mpr ⟨hvalue, hnull, (Bool.not_eq_false _).mp hdiverged⟩
    rw [h key] at hsome
    cases hsome
  · intro h key
    by_contra hne
    obtain ⟨value, hdelta⟩ := Option.ne_none_iff_exists'.mp hne
    obtain ⟨hvalue, hnull, hdiverged⟩ := get_computeDelta_some.mp hdelta
    rw [h key value hvalue hnull] at hdiverged
    cases hdiverged

-- A report of the delta gives every key that diverged its desired value.
theorem converged_of_delta (h : StoredShape row) {report : PropertyReport}
    (hreport : report.properties = computeDelta desired (reportedMap row)) :
    (computeDelta desired (reportedMap (report.write rfc3339 row))).isEmpty = true := by
  rw [isEmpty_computeDelta_iff]
  intro key value hvalue hnull
  rw [diverged_report (reported_write h report), hreport]
  cases hdelta : (computeDelta desired (reportedMap row)).get key with
  | none =>
      by_contra hdiverged
      have hsome := get_computeDelta_some.mpr ⟨hvalue, hnull, (Bool.not_eq_false _).mp hdiverged⟩
      rw [hdelta] at hsome
      cases hsome
  | some new =>
      obtain rfl := Option.some.inj ((get_computeDelta_some.mp hdelta).1.symm.trans hvalue)
      have hself : (new == new) = true :=
        Json.beq_self (JsonMap.wellFormed_value _ ((JsonMap.get_eq_some_iff _ _ _).mp hvalue))
      simp [hself]

-- A report without a desired key leaves every comparison as it is.
theorem converged_write (h : StoredShape row) {report : PropertyReport}
    (hreport : ∀ key, (desired.get key).isSome = true → report.properties.get key = none)
    (hempty : (computeDelta desired (reportedMap row)).isEmpty = true) :
    (computeDelta desired (reportedMap (report.write rfc3339 row))).isEmpty = true := by
  rw [isEmpty_computeDelta_iff] at hempty ⊢
  intro key value hvalue hnull
  rw [diverged_report (reported_write h report), hreport key (by simp [hvalue])]
  exact hempty key value hvalue hnull

theorem converged_writes (h : StoredShape row) {reports : List PropertyReport}
    (hreports : ∀ report ∈ reports, ∀ key, (desired.get key).isSome = true →
      report.properties.get key = none)
    (hempty : (computeDelta desired (reportedMap row)).isEmpty = true) :
    (computeDelta desired
      (reportedMap (reports.foldl (fun old report => report.write rfc3339 old) row))).isEmpty =
        true := by
  induction reports generalizing row with
  | nil => exact hempty
  | cons report reports ih =>
      obtain ⟨hreport, hrest⟩ := List.forall_mem_cons.mp hreports
      exact ih (storedShape_write h report) hrest (converged_write h hreport hempty)

end Write

-- What a device has to change, and that it is enough to change that.
theorem delta_report_converges (rfc3339 : OffsetDateTime → String) (desired : JsonMap)
    (row : Option PropertyLatest)
    (hnull : ∀ key value, desired.get key = some value → value.isNull = false)
    (hshape : StoredShape row) :
    (∀ key value, (computeDelta desired (reportedMap row)).get key = some value ↔
      desired.get key = some value ∧ ((reportedMap row).get key = none ∨
        ∃ time found, (reportedMap row).get key = some (stamped time (key, found)).2 ∧
          (found == value) = false)) ∧
    ∀ report : PropertyReport, report.properties = computeDelta desired (reportedMap row) →
      (computeDelta desired (reportedMap (report.write rfc3339 row))).isEmpty = true ∧
      (∀ key, report.properties.get key = none →
        (reportedMap (report.write rfc3339 row)).get key = (reportedMap row).get key) ∧
      ∀ reports : List PropertyReport,
        (∀ other ∈ reports, ∀ key, (desired.get key).isSome = true → other.properties.get key =
          none) →
        (computeDelta desired (reportedMap (reports.foldl (fun old other => other.write rfc3339 old)
          (report.write rfc3339 row)))).isEmpty = true := by
  refine ⟨?_, ?_⟩
  · intro key value
    have hdiverged : diverged (reportedMap row) key value = true ↔
        (reportedMap row).get key = none ∨
        ∃ time found, (reportedMap row).get key = some (stamped time (key, found)).2 ∧
          (found == value) = false := by
      unfold diverged
      cases hobj : (reportedMap row).get key with
      | none => simp
      | some obj =>
          obtain ⟨time, found, rfl⟩ := hshape.get hobj
          have hvalue : (stamped time (key, found)).2.get "value" = some found := rfl
          simp only [hvalue, reduceCtorEq, false_or, Bool.not_eq_true']
          constructor
          · exact fun hne => ⟨time, found, rfl, hne⟩
          · rintro ⟨time', found', hsame, hne⟩
            simp only [stamped, Option.some.injEq, Json.object.injEq, List.cons.injEq,
              Prod.mk.injEq] at hsame
            rw [hsame.2.1.2]
            exact hne
    rw [get_computeDelta_some, hdiverged]
    constructor
    · exact fun h => ⟨h.1, h.2.2⟩
    · exact fun h => ⟨h.1, hnull key value h.1, h.2⟩
  · intro report hreport
    have hconverged : (computeDelta desired (reportedMap (report.write rfc3339 row))).isEmpty =
        true :=
      converged_of_delta hshape hreport
    refine ⟨hconverged, ?_, ?_⟩
    · intro key hkey
      rw [reported_write hshape report key, hkey]
      rfl
    · exact fun reports hreports => converged_writes (storedShape_write hshape report) hreports
        hconverged

section Example

def brightnessAndMode : JsonMap :=
  ⟨[("brightness", .number (.posInt 80)), ("mode", .string "eco")], by decide +kernel⟩

-- The brightness is another one, and the mode has never been reported.
def dimmed : PropertyLatest :=
  ⟨"p", "d", (stampedMap "1970-01-01T00:00:00Z"
    ⟨[("brightness", .number (.posInt 50))], by decide +kernel⟩).toJson, 0⟩

theorem brightness_report_converges :
    (computeDelta brightnessAndMode
      (reportedMap (PropertyReport.write (fun _ => "1970-01-01T00:00:00Z") (some dimmed)
      ⟨"p", "d", computeDelta brightnessAndMode (reportedMap (some dimmed)), 0⟩))).isEmpty =
        true := by
  have hnull : ∀ key value, brightnessAndMode.get key = some value → value.isNull = false := by
    intro key value hvalue
    have hmem := (JsonMap.get_eq_some_iff _ _ _).mp hvalue
    simp only [brightnessAndMode, List.mem_cons, Prod.mk.injEq, List.not_mem_nil, or_false] at hmem
    rcases hmem with ⟨-, rfl⟩ | ⟨-, rfl⟩ <;> rfl
  have hshape : StoredShape (some dimmed) := by
    intro found hfound
    obtain rfl := Option.some.inj hfound
    refine ⟨_, rfl, ?_⟩
    intro key obj hobj
    rw [get_stampedMap] at hobj
    obtain ⟨value, -, rfl⟩ := Option.map_eq_some_iff.mp hobj
    exact ⟨_, value, rfl⟩
  exact ((delta_report_converges (fun _ => "1970-01-01T00:00:00Z") brightnessAndMode (some dimmed)
    hnull hshape).2 ⟨"p", "d", _, 0⟩ rfl).1

end Example

end RmqttThings.Devices
