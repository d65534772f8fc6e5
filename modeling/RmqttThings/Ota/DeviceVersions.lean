import RmqttThings.Ota.Reports

namespace RmqttThings.Ota

open Effects
open Api (ApiError databaseError)

section Upsert

-- The upsert changes nothing: the version is the stored one, or the last change of it is too
-- recent.
def LeavesAlone (old : Option DeviceVersion) (version : Int32) (now : OffsetDateTime) : Prop :=
  ∃ row, old = some row ∧ (row.version = version ∨ ∃ last, row.lastUpdatedAt = some last ∧
    now - tenMinutes ≤ last)

-- The upsert leaves this version: there is no row, or it has the version, or the last change is old
-- enough.
def TakesOver (old : Option DeviceVersion) (version : Int32) (now : OffsetDateTime) : Prop :=
  ∀ row, old = some row → row.version = version ∨ ∀ last, row.lastUpdatedAt = some last →
    last < now - tenMinutes

variable {row : DeviceVersion} {old : Option DeviceVersion} {version : Int32} {now : OffsetDateTime}

theorem moves_iff : row.moves version now = true ↔
    row.version ≠ version ∧ ∀ last, row.lastUpdatedAt = some last → last < now - tenMinutes := by
  simp [DeviceVersion.moves, Option.all_eq_true]

theorem upsertRow_eq_iff :
    some (upsertRow old version now) = old ↔ LeavesAlone old version now := by
  cases old with
  | none => simp [LeavesAlone]
  | some row =>
      simp only [upsertRow, Option.some.injEq, LeavesAlone, exists_eq_left']
      by_cases hmoves : row.moves version now = true
      · obtain ⟨hversion, hlast⟩ := moves_iff.mp hmoves
        rw [if_pos hmoves]
        constructor
        · intro h
          rw [← h] at hversion
          exact absurd rfl hversion
        · rintro (h | ⟨last, hsome, hle⟩)
          · exact absurd h hversion
          · exact absurd (hlast last hsome) (not_lt.mpr hle)
      · rw [if_neg hmoves]
        rw [moves_iff, not_and_or, not_not] at hmoves
        refine iff_of_true rfl (hmoves.imp id fun h => ?_)
        push Not at h
        exact h

theorem upsertRow_version_iff :
    (upsertRow old version now).version = version ↔ TakesOver old version now := by
  cases old with
  | none => simp [upsertRow, TakesOver]
  | some row =>
      simp only [upsertRow, TakesOver, Option.some.injEq, forall_eq']
      by_cases hmoves : row.moves version now = true
      · rw [if_pos hmoves]
        exact iff_of_true rfl (.inr (moves_iff.mp hmoves).2)
      · rw [if_neg hmoves]
        rw [moves_iff, not_and_or, not_not] at hmoves
        constructor
        · exact .inl
        · rintro (h | h)
          · exact h
          · exact hmoves.resolve_right (not_not.mpr h)

-- The row has been changed at `since` or later.
def ChangedSince (since : OffsetDateTime) (old : Option DeviceVersion) : Prop :=
  ∃ row last, old = some row ∧ row.lastUpdatedAt = some last ∧ since ≤ last

theorem ChangedSince.upsert {since : OffsetDateTime} (h : ChangedSince since old)
    (hnow : since ≤ now) :
    ChangedSince since (some (upsertRow old version now)) := by
  obtain ⟨row, last, rfl, hlast, hle⟩ := h
  simp only [upsertRow]
  by_cases hmoves : row.moves version now = true
  · exact ⟨_, now, by rw [if_pos hmoves], rfl, hnow⟩
  · exact ⟨row, last, by rw [if_neg hmoves], hlast, hle⟩

-- An upsert that does something leaves a mark that the old row does not have.
theorem changedSince_of_change (h : ¬LeavesAlone old version now) :
    ChangedSince now (some (upsertRow old version now)) ∧ ¬ChangedSince now old := by
  cases old with
  | none => exact ⟨⟨_, now, rfl, rfl, le_refl now⟩, fun ⟨_, _, hnone, _⟩ => nomatch hnone⟩
  | some row =>
      have hmoves : row.moves version now = true := by
        by_contra hmoves
        exact h (upsertRow_eq_iff.mp (by simp [upsertRow, hmoves]))
      refine ⟨⟨⟨version, some now⟩, now, by simp [upsertRow, hmoves], rfl, le_refl now⟩, ?_⟩
      rintro ⟨_, last, hsome, hlast, hle⟩
      obtain rfl := Option.some.inj hsome
      have hwindow : now - tenMinutes ≤ now := Int.sub_le_self now (by decide)
      exact absurd (((moves_iff.mp hmoves).2 last hlast).trans_le hwindow) (not_lt.mpr hle)

end Upsert

section Rejected

variable {productId deviceId : String}

theorem record_eq_of_leavesAlone {t : VersionTable} {visit : Visit}
    (h : LeavesAlone (t (productId, deviceId, visit.key)) visit.version visit.instant) :
    record productId deviceId t visit = t := by
  rw [record, upsertRow_eq_iff.mpr h, Function.update_eq_self]

theorem changedSince_recordAll {since : OffsetDateTime} {key : VersionKey} {done : List Visit}
    {t : VersionTable}
    (hdone : ∀ visit ∈ done, since ≤ visit.instant) (h : ChangedSince since (t key)) :
    ChangedSince since (recordAll productId deviceId t done key) := by
  induction done generalizing t with
  | nil => exact h
  | cons visit done ih =>
      refine ih (fun other hother => hdone other (List.mem_cons_of_mem _ hother)) ?_
      by_cases hkey : key = (productId, deviceId, visit.key)
      · subst hkey
        rw [record_self]
        exact h.upsert (hdone visit List.mem_cons_self)
      · rw [record, Function.update_of_ne hkey]
        exact h

-- A table that has been changed is never restored: the last change is later than the rows know.
theorem recordAll_eq_iff {done : List Visit}
    (hsorted : done.Pairwise fun visit next => visit.instant ≤ next.instant) (t : VersionTable) :
    recordAll productId deviceId t done = t ↔
      ∀ visit ∈ done, LeavesAlone (t (productId, deviceId, visit.key)) visit.version
        visit.instant := by
  induction done generalizing t with
  | nil => simp [recordAll]
  | cons visit done ih =>
      obtain ⟨hle, hrest⟩ := List.pairwise_cons.mp hsorted
      rw [List.forall_mem_cons]
      by_cases halone : LeavesAlone (t (productId, deviceId, visit.key)) visit.version visit.instant
      · have hsame : recordAll productId deviceId t (visit :: done) = recordAll productId deviceId t
            done := by
          rw [recordAll, List.foldl_cons, record_eq_of_leavesAlone halone]
          rfl
        rw [hsame, ih hrest]
        exact (and_iff_right halone).symm
      · refine iff_of_false (fun hrestored => ?_) fun h => halone h.1
        obtain ⟨hmarked, hunmarked⟩ := changedSince_of_change halone
        rw [← record_self] at hmarked
        have hkept : ChangedSince visit.instant
            (recordAll productId deviceId (record productId deviceId t visit) done
            (productId, deviceId, visit.key)) := changedSince_recordAll hle hmarked
        have hsame : recordAll productId deviceId (record productId deviceId t visit) done = t :=
          hrestored
        rw [hsame] at hkept
        exact hunmarked hkept

-- A report that is rejected for a malformed version has changed nothing, and pushes nothing,
-- exactly when each of the entries before that one finds its own row as it would leave it.
theorem rejected_report_iff (config : MqttConfig) (w : World) (msg : RMqttPublishMessage)
    (productId : String) (params : OtaReportParams)
    (hparse : parseReport msg = .ok (productId, params)) (e : ApiError)
    (hanswer : ((otaVersionPost config msg).run sem w).1 = .error e)
    (hstatus : e.status = .badRequest) :
    (((otaVersionPost config msg).final sem w).tables.deviceVersions = w.tables.deviceVersions ∧
        ∀ upgrades, ¬Pushes ((otaVersionPost config msg).trace sem w) upgrades) ↔
      ∀ visit ∈ visits w.clock w.delays params.params,
        LeavesAlone (w.tables.deviceVersions (productId, msg.clientId, visit.key)) visit.version
          visit.instant := by
  have hquiet : ∀ upgrades, ¬Pushes ((otaVersionPost config msg).trace sem w) upgrades := by
    rintro upgrades ⟨request, answer, id, ack, hmem, -⟩
    exact (spec_badRequest config msg).trace sem w ⟨e, hanswer, hstatus⟩ _ hmem trivial
  obtain ⟨done, -, htables, hall, -⟩ := run_recorded config hparse w
  have hdone : done = visits w.clock w.delays params.params := by
    refine hall fun hfailed => ?_
    rw [hanswer] at hfailed
    rw [Except.error.inj hfailed] at hstatus
    cases hstatus
  rw [and_iff_left hquiet, htables, hdone]
  exact recordAll_eq_iff visits_sorted w.tables.deviceVersions

-- The second entry of the report is malformed.
def halfMalformed : RMqttPublishMessage where
  clientId := "d"
  topic := "/p/d/ota/version"
  payload := .report ⟨[⟨"main", "1.0.0"⟩, ⟨"app", "1.0"⟩], "1", .no⟩

def malformedError : ApiError :=
  .badRequest "Invalid version format: must be major.minor.patch (e.g. 1.2.3)"

-- The device is known with this version.
def knownDevice (version : Int32) : World :=
  World.started { Tables.empty with deviceVersions := fun _ => some ⟨version, some 0⟩ }

theorem rejected_report_iff_known :
    ((otaVersionPost testConfig halfMalformed).final sem
      (knownDevice 100000)).tables.deviceVersions =
        (knownDevice 100000).tables.deviceVersions ∧
      ∀ upgrades, ¬Pushes ((otaVersionPost testConfig halfMalformed).trace sem (knownDevice 100000))
        upgrades := by
  refine (rejected_report_iff testConfig (knownDevice 100000) halfMalformed "p"
    ⟨[⟨"main", "1.0.0"⟩, ⟨"app", "1.0"⟩], "1", .no⟩ rfl malformedError rfl rfl).mpr
      fun visit hvisit => ?_
  have hvisits : visits (knownDevice 100000).clock (knownDevice 100000).delays
      [⟨"main", "1.0.0"⟩, ⟨"app", "1.0"⟩] = [⟨"main", 100000, 0⟩] := rfl
  rw [hvisits, List.mem_singleton] at hvisit
  subst hvisit
  exact ⟨⟨100000, some 0⟩, rfl, .inl rfl⟩

theorem half_malformed_recorded :
    ((otaVersionPost testConfig halfMalformed).run sem (World.started Tables.empty)).1 =
      .error malformedError ∧ ((otaVersionPost testConfig halfMalformed).final sem
        (World.started Tables.empty)).tables.deviceVersions ≠
        (World.started Tables.empty).tables.deviceVersions := by
  refine ⟨rfl, fun h => ?_⟩
  have hrow := congrArg (fun t : VersionTable => (t ("p", "d", "main")).isSome) h
  exact absurd hrow (by decide +kernel)

end Rejected

section Answered

variable (config : MqttConfig) (start : World) (requests : List Request)

-- The requests one after the other.
def session (requests : List Request) : M Unit :=
  Prog.forEach requests fun request => do
    let _ ← serve config request
    return ()

-- A report of the session that is answered with 204, and the state that it finds.
structure Answered (w : World) (msg : RMqttPublishMessage) (productId : String)
    (params : OtaReportParams) : Prop where
  place : ∃ front back, requests = front ++ .report msg :: back ∧
    w = (session config front).final sem start
  parsed : parseReport msg = .ok (productId, params)
  answer : ((otaVersionPost config msg).run sem w).1 = .ok ()

-- The versions after a report: of the last entry for each reported key, and as before of every
-- other key.
structure LastReported (productId deviceId : String) (reports : List OtaReport)
    (before after : VersionTable) : Prop where
  reported : ∀ front report back, reports = front ++ report :: back →
    (∀ other ∈ back, other.key ≠ report.key) →
    ∃ row, after (productId, deviceId, report.key) = some row ∧ parseSemverToInt report.version =
      .ok row.version
  others : ∀ key, (∀ report ∈ reports, key ≠ (productId, deviceId, report.key)) →
    after key = before key

-- The last entry of a report for a key finds a row that it can replace, or one with its version.
def LastTakesOver (productId deviceId : String) (w : World) (reports : List OtaReport) : Prop :=
  ∀ front visit back, visits w.clock w.delays reports = front ++ visit :: back →
    (∀ other ∈ back, other.key ≠ visit.key) →
    TakesOver (recordAll productId deviceId w.tables.deviceVersions front (productId, deviceId,
      visit.key)) visit.version visit.instant

variable {productId deviceId : String} {clock : OffsetDateTime} {delays : Nat → Nat}
  {reports : List OtaReport}

-- The entry behind a visit.
def entry (visit : Visit) : String × Except ApiError Int32 := (visit.key, .ok visit.version)

def OtaReport.entry (report : OtaReport) : String × Except ApiError Int32 :=
  (report.key, parseSemverToInt report.version)

theorem visits_entries (h : WellFormed reports) :
    (visits clock delays reports).map Ota.entry = reports.map OtaReport.entry := by
  induction reports generalizing clock delays with
  | nil => rfl
  | cons report reports ih =>
      obtain ⟨⟨version, hparse⟩, hrest⟩ := List.forall_mem_cons.mp h
      rw [visits_cons hparse, List.map_cons, List.map_cons, ih hrest, OtaReport.entry, hparse]
      rfl

-- Two lists with the same entries split alike.
theorem split_of_map_eq {α β γ : Type} {f : α → γ} {g : β → γ} {items : List α}
    {front back : List β} {item : β} (h : items.map f = (front ++ item :: back).map g) :
    ∃ front' item' back', items = front' ++ item' :: back' ∧ f item' = g item ∧
      back'.map f = back.map g := by
  rw [List.map_append, List.map_cons] at h
  obtain ⟨front', rest, rfl, -, hrest⟩ := List.map_eq_append_iff.mp h
  obtain ⟨item', back', rfl, hitem, hback⟩ := List.map_eq_cons_iff.mp hrest
  exact ⟨front', item', back', rfl, hitem, hback⟩

theorem key_notMem_iff {done : List Visit} (h : done.map Ota.entry = reports.map OtaReport.entry)
    (key : String) :
    (∀ visit ∈ done, visit.key ≠ key) ↔ ∀ report ∈ reports, report.key ≠ key := by
  have hvisits : (∀ entry ∈ done.map Ota.entry, entry.1 ≠ key) ↔ ∀ visit ∈ done, visit.key ≠ key :=
    List.forall_mem_map
  have hreports : (∀ entry ∈ reports.map OtaReport.entry, entry.1 ≠ key) ↔ ∀ report ∈ reports,
      report.key ≠ key :=
    List.forall_mem_map
  rw [← hvisits, h, hreports]

-- Only the last entry for a key decides what is stored for it.
theorem recordAll_last (t : VersionTable) (front : List Visit) (visit : Visit) {back : List Visit}
    (h : ∀ other ∈ back, other.key ≠ visit.key) :
    recordAll productId deviceId t (front ++ visit :: back) (productId, deviceId, visit.key) =
      some (upsertRow (recordAll productId deviceId t front (productId, deviceId, visit.key))
        visit.version visit.instant) := by
  have hback : ∀ other ∈ back, (productId, deviceId, visit.key) ≠ (productId, deviceId,
      other.key) :=
    fun other hother he => h other hother (congrArg (fun key => key.2.2) he).symm
  rw [recordAll_append]
  exact (recordAll_of_not_visited productId deviceId _ hback).trans
    (record_self productId deviceId _ visit)

theorem lastReported_iff (hformed : WellFormed reports) (w : World) :
    LastReported productId deviceId reports w.tables.deviceVersions
        (recordAll productId deviceId w.tables.deviceVersions (visits w.clock w.delays reports)) ↔
      LastTakesOver productId deviceId w reports := by
  have hentries : (visits w.clock w.delays reports).map Ota.entry = reports.map OtaReport.entry :=
    visits_entries hformed
  constructor
  · rintro ⟨hreported, -⟩ front visit back hsplit hlast
    rw [hsplit] at hentries hreported
    obtain ⟨front', report, back', hreports, hentry, hback⟩ := split_of_map_eq hentries.symm
    obtain ⟨hkey, hversion⟩ := Prod.mk.inj hentry
    obtain ⟨row, hrow, hparsed⟩ := hreported front' report back' hreports
      (hkey ▸ (key_notMem_iff hback.symm visit.key).mp hlast)
    rw [hkey, recordAll_last _ _ _ hlast] at hrow
    rw [hversion] at hparsed
    rw [← upsertRow_version_iff, Option.some.inj hrow]
    exact (Except.ok.inj hparsed).symm
  · intro htakes
    constructor
    · rintro front report back rfl hlast
      obtain ⟨front', visit, back', hvisits, hentry, hback⟩ := split_of_map_eq hentries
      obtain ⟨hkey, hversion⟩ := Prod.mk.inj hentry
      rw [← hkey] at hlast ⊢
      have hlast' := (key_notMem_iff hback visit.key).mpr hlast
      rw [hvisits, recordAll_last _ _ _ hlast']
      refine ⟨_, rfl, ?_⟩
      rw [upsertRow_version_iff.mpr (htakes front' visit back' hvisits hlast'), ← hversion]
    · intro key hkey
      refine recordAll_of_not_visited productId deviceId _ fun visit hvisit he => ?_
      obtain ⟨report, hreport, hentry⟩ := List.mem_map.mp (hentries ▸ List.mem_map_of_mem hvisit)
      rw [← (Prod.mk.inj hentry).1] at he
      exact hkey report hreport he

-- In a session, the stored versions are those of the last reports exactly when every last entry
-- for a key comes later than ten minutes after the last change of its row, or changes nothing.
theorem recorded_versions_iff (config : MqttConfig) (start : World) (requests : List Request) :
    (∀ w msg productId params, Answered config start requests w msg productId params →
      LastReported productId msg.clientId params.params w.tables.deviceVersions
        ((otaVersionPost config msg).final sem w).tables.deviceVersions) ↔
      ∀ w msg productId params, Answered config start requests w msg productId params →
        LastTakesOver productId msg.clientId w params.params := by
  refine forall_congr' fun w => forall_congr' fun msg => forall_congr' fun productId =>
    forall_congr' fun params =>
    forall_congr' fun hanswered => ?_
  obtain ⟨done, -, htables, hall, hformed⟩ := run_recorded config hanswered.parsed w
  rw [hanswered.answer] at hall hformed
  rw [htables, hall (by simp)]
  exact lastReported_iff (hformed () rfl) w

def reportOf (version : String) : RMqttPublishMessage where
  clientId := "d"
  topic := "/p/d/ota/version"
  payload := .report ⟨[⟨"main", version⟩], "1", .no⟩

theorem LastReported.version {report : OtaReport} {before after : VersionTable} {version : Int32}
    (h : LastReported productId deviceId [report] before after)
    (hparse : parseSemverToInt report.version = .ok version) :
    (after (productId, deviceId, report.key)).map (·.version) = some version := by
  obtain ⟨row, hrow, hparsed⟩ := h.reported [] report [] rfl (by simp)
  rw [hrow, Option.map_some, Except.ok.inj (hparsed.symm.trans hparse)]

-- The device has been upgraded, and reports its new version five minutes after the old one.
theorem upgraded_within_window :
    let start := { World.started Tables.empty with
        delays := fun n => if n = 3 then 300000000000 else 0 }
    let w := (session testConfig [.report (reportOf "1.0.0")]).final sem start
    Answered testConfig start [.report (reportOf "1.0.0"), .report (reportOf "1.1.0")] w
      (reportOf "1.1.0") "p"
        ⟨[⟨"main", "1.1.0"⟩], "1", .no⟩ ∧
      ¬LastReported "p" "d" [⟨"main", "1.1.0"⟩] w.tables.deviceVersions
        ((otaVersionPost testConfig (reportOf "1.1.0")).final sem w).tables.deviceVersions := by
  intro start w
  refine ⟨⟨⟨[.report (reportOf "1.0.0")], [], rfl, rfl⟩, rfl, rfl⟩, fun h => ?_⟩
  have hversion (after : VersionTable)
      (h : LastReported "p" "d" [⟨"main", "1.1.0"⟩] w.tables.deviceVersions after) :
      (after ("p", "d", "main")).map (·.version) = some 101000 := h.version rfl
  have hstored : (((otaVersionPost testConfig (reportOf "1.1.0")).final sem w).tables.deviceVersions
      ("p", "d", "main")).map (·.version) = some 100000 := by decide +kernel
  have hreported := hversion _ h
  rw [hstored] at hreported
  exact absurd hreported (by decide)

end Answered

end RmqttThings.Ota
