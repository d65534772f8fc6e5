import RmqttThings.Effects.Pool
import RmqttThings.Ota.Debounce

namespace RmqttThings.Ota

open Effects
open Api (ApiError)

section Newest

variable {rows : List OtaVersion} {row : OtaVersion}

theorem newest_eq_none_iff : newest rows = none ↔ rows = [] := by
  cases rows with
  | nil => simp [newest]
  | cons row rows =>
      simp only [newest, reduceCtorEq, iff_false]
      cases newest rows with
      | none => simp
      | some best => by_cases h : best.version < row.version <;> simp [h]

theorem newest_mem (h : newest rows = some row) : row ∈ rows := by
  induction rows generalizing row with
  | nil => cases h
  | cons first rows ih =>
      simp only [newest] at h
      cases hbest : newest rows with
      | none =>
          rw [hbest] at h
          exact Option.some.inj h ▸ List.mem_cons_self
      | some best =>
          simp only [hbest] at h
          by_cases hlt : best.version < first.version
          · rw [if_pos hlt] at h
            exact Option.some.inj h ▸ List.mem_cons_self
          · rw [if_neg hlt] at h
            exact List.mem_cons_of_mem _ (ih (hbest.trans h))

theorem newest_greatest (h : newest rows = some row) {other : OtaVersion} (hother : other ∈ rows) :
    other.version ≤ row.version := by
  induction rows generalizing row with
  | nil => cases hother
  | cons first rows ih =>
      simp only [newest] at h
      cases hbest : newest rows with
      | none =>
          rw [newest_eq_none_iff.mp hbest] at hother
          rw [hbest] at h
          rw [List.mem_singleton.mp hother, Option.some.inj h]
          exact Int32.le_rfl
      | some best =>
          simp only [hbest] at h
          by_cases hlt : best.version < first.version
          · rw [if_pos hlt, Option.some.injEq] at h
            subst h
            rcases List.mem_cons.mp hother with rfl | hrest
            · exact Int32.le_rfl
            · exact Int32.le_trans (ih hbest hrest) (Int32.le_of_lt hlt)
          · rw [if_neg hlt] at h
            rcases List.mem_cons.mp hother with rfl | hrest
            · exact Option.some.inj h ▸ Int32.not_lt.mp hlt
            · exact ih (hbest.trans h) hrest

end Newest

section Catalog

-- What the unique index keeps: no two rows that are not deleted have the same version.
def UniqueVersions (rows : List OtaVersion) : Prop :=
  ∀ row ∈ rows, ∀ other ∈ rows, row.status = 0 → other.status = 0 →
    row.productId = other.productId →
    row.key = other.key → row.version = other.version → row = other

variable {rows : List OtaVersion}

-- An update of rows keeps the columns of the index, or deletes the row.
theorem UniqueVersions.updated (h : UniqueVersions rows) (set : OtaVersion → OtaVersion) (id : Int)
    (hset : ∀ row, (set row).status = 0 → row.status = 0 ∧ (set row).productId = row.productId ∧
      (set row).key = row.key ∧ (set row).version = row.version) :
    UniqueVersions (rows.map fun row => if row.id == id then set row else row) := by
  let step := fun row : OtaVersion => if row.id == id then set row else row
  have hstep (row : OtaVersion) (hstatus : (step row).status = 0) : row.status = 0 ∧
      (step row).productId = row.productId ∧ (step row).key = row.key ∧
        (step row).version = row.version := by
    by_cases hid : (row.id == id) = true
    · simp only [step, hid, if_true] at hstatus ⊢
      exact hset row hstatus
    · simp only [step, hid] at hstatus ⊢
      exact ⟨hstatus, rfl, rfl, rfl⟩
  intro row hrow other hother hstatus hstatus' hproduct hkey hversion
  obtain ⟨old, hold, rfl⟩ := List.mem_map.mp hrow
  obtain ⟨old', hold', rfl⟩ := List.mem_map.mp hother
  obtain ⟨hactive, hp, hk, hv⟩ := hstep old hstatus
  obtain ⟨hactive', hp', hk', hv'⟩ := hstep old' hstatus'
  exact congrArg step (h old hold old' hold' hactive hactive' ((hp.symm.trans hproduct).trans hp')
    ((hk.symm.trans hkey).trans hk') ((hv.symm.trans hversion).trans hv'))

-- The index refuses a version that exists.
theorem UniqueVersions.created {t : Tables} (h : UniqueVersions t.otaVersions) {new : NewOtaVersion}
    (hnew : t.hasVersion new = false) (id : Int) (now : OffsetDateTime) :
    UniqueVersions (t.otaVersions ++ [new.toRow id now]) := by
  have hfresh {row : OtaVersion} (hrow : row ∈ t.otaVersions) (hstatus : row.status = 0)
      (hproduct : row.productId = new.productId) (hkey : row.key = new.key) :
      row.version ≠ new.version := by
    intro hversion
    have hany := List.any_eq_false.mp hnew row hrow
    simp [hstatus, hproduct, hkey, hversion] at hany
  intro row hrow other hother hstatus hstatus' hproduct hkey hversion
  rcases List.mem_append.mp hrow with hold | hlast
  · rcases List.mem_append.mp hother with hold' | hlast'
    · exact h row hold other hold' hstatus hstatus' hproduct hkey hversion
    · rw [List.mem_singleton.mp hlast'] at hproduct hkey hversion
      exact absurd hversion (hfresh hold hstatus hproduct hkey)
  · rw [List.mem_singleton.mp hlast] at hproduct hkey hversion ⊢
    rcases List.mem_append.mp hother with hold' | hlast'
    · exact absurd hversion.symm (hfresh hold' hstatus' hproduct.symm hkey.symm)
    · exact (List.mem_singleton.mp hlast').symm

theorem UniqueVersions.step {w : World} (h : UniqueVersions w.tables.otaVersions) (op : Op) :
    UniqueVersions (sem op w).2.tables.otaVersions := by
  cases op with
  | nowUtc => exact h
  | postPublish request => exact h
  | sql stmt =>
      cases hanswer : (sem (.sql stmt) w).1 with
      | error text =>
          rw [sem_sql_error hanswer]
          exact h
      | ok answer =>
          obtain ⟨hexec, htables⟩ := sem_sql_ok hanswer
          rw [htables]
          cases stmt with
          | upsertDeviceVersion productId deviceId key version now => exact h
          | getOtaUpdate productId deviceId key version => exact h
          | createOtaVersion new =>
              by_cases hnew : w.tables.hasVersion new = true
              · simp [Sql.exec, hnew] at hexec
              · rw [Bool.not_eq_true] at hnew
                rw [Sql.exec, hnew]
                exact h.created hnew _ _
          | updateOtaVersion id change =>
              exact h.updated change.apply id fun _ hstatus => ⟨hstatus, rfl, rfl, rfl⟩
          | deleteOtaVersion id =>
              have hdeleted : (1 : Int16) ≠ 0 := by decide
              exact h.updated (fun row => { row with status := 1 }) id fun _ hstatus =>
                absurd hstatus hdeleted

-- Whatever the admin API creates from an empty table.
theorem uniqueVersions_replay {start : World} (hstart : start.tables.otaVersions = [])
    (log : List (Nat × Event Op.Ans)) :
    UniqueVersions (Pool.replay sem start log).tables.otaVersions := by
  induction log with
  | nil =>
      intro row hrow
      rw [Pool.replay, hstart] at hrow
      cases hrow
  | cons entry log ih => exact ih.step entry.2.1

end Catalog

section Lookup

variable (w : World) (productId deviceId key : String) (version : Int32)

-- The row is released, not deleted, and meant for the device with this version, when it is looked
-- up.
def Applicable (row : OtaVersion) : Prop :=
  row ∈ w.tables.otaVersions ∧ row.applies (w.clock + w.delays 0) productId deviceId key version =
    true

-- An upgrade of the reported version: newer, and greater than every other one that applies.
structure RealUpgrade (row : OtaVersion) : Prop where
  newer : version < row.version
  applicable : Applicable w productId deviceId key version row
  greatest : ∀ other, Applicable w productId deviceId key version other → other = row ∨
    other.version < row.version

-- If any version applies, then a newer one does.
def NewerApplies : Prop :=
  (∃ row, Applicable w productId deviceId key version row) →
    ∃ row, Applicable w productId deviceId key version row ∧ version < row.version

variable {w productId deviceId key version} {row : OtaVersion}

abbrev World.lookup (w : World) (productId deviceId key : String) (version : Int32) :
    Except String (Option OtaVersion) :=
  (sem (.sql (.getOtaUpdate productId deviceId key version)) w).1

theorem newest_of_lookup (h : w.lookup productId deviceId key version = .ok (some row)) :
    newest (w.tables.otaVersions.filter (OtaVersion.applies (w.clock + w.delays 0) productId
      deviceId key version)) =
      some row := Except.ok.inj (sem_sql_ok h).1

theorem lookup_applicable (h : w.lookup productId deviceId key version = .ok (some row)) :
    Applicable w productId deviceId key version row :=
      List.mem_filter.mp (newest_mem (newest_of_lookup h))

-- The index leaves the statement no choice between rows of one version.
theorem lookup_greatest (hunique : UniqueVersions w.tables.otaVersions)
    (h : w.lookup productId deviceId key version = .ok (some row)) {other : OtaVersion}
    (hother : Applicable w productId deviceId key version other) :
    other = row ∨ other.version < row.version := by
  obtain ⟨hmem, happlies⟩ := lookup_applicable h
  obtain ⟨hmem', happlies'⟩ := hother
  have hle : other.version ≤ row.version :=
    newest_greatest (newest_of_lookup h) (List.mem_filter.mpr ⟨hmem', happlies'⟩)
  by_cases hversion : other.version = row.version
  · left
    simp only [OtaVersion.applies, Bool.and_eq_true, beq_iff_eq] at happlies happlies'
    obtain ⟨⟨⟨⟨⟨⟨hproduct, hkey⟩, hstatus⟩, -⟩, -⟩, -⟩, -⟩ := happlies
    obtain ⟨⟨⟨⟨⟨⟨hproduct', hkey'⟩, hstatus'⟩, -⟩, -⟩, -⟩, -⟩ := happlies'
    exact hunique other hmem' row hmem hstatus' hstatus (hproduct'.trans hproduct.symm)
      (hkey'.trans hkey.symm) hversion
  · exact .inr (Int32.lt_of_le_of_ne hle hversion)

theorem realUpgrade_iff (hunique : UniqueVersions w.tables.otaVersions)
    (h : w.lookup productId deviceId key version = .ok (some row)) :
    RealUpgrade w productId deviceId key version row ↔
      NewerApplies w productId deviceId key version := by
  constructor
  · exact fun hreal _ => ⟨row, hreal.applicable, hreal.newer⟩
  · intro hnewer
    obtain ⟨other, hother, hlt⟩ := hnewer ⟨row, lookup_applicable h⟩
    refine ⟨?_, lookup_applicable h, fun _ happlicable => lookup_greatest hunique h happlicable⟩
    rcases lookup_greatest hunique h hother with rfl | hgreater
    · exact hlt
    · exact Int32.lt_trans hlt hgreater

end Lookup

section Pushed

-- The row has been looked up for an entry of the report.
def Found (productId deviceId : String) (reports : List OtaReport) (past : Past)
    (row : OtaVersion) : Prop :=
  ∃ report ∈ reports, ∃ version, parseSemverToInt report.version = .ok version ∧
    checkedEvent productId deviceId report.key version (.ok (some row)) ∈ past

variable {productId deviceId : String} {past : Past}

theorem Found.cons {reports : List OtaReport} {row : OtaVersion}
    (h : Found productId deviceId reports past row)
    (event : Event Op.Ans) : Found productId deviceId reports (event :: past) row := by
  obtain ⟨report, hreport, version, hparse, hmem⟩ := h
  exact ⟨report, hreport, version, hparse, List.mem_cons_of_mem _ hmem⟩

-- The loop collects what it has looked up, and publishes nothing.
theorem processReports_found {all : List OtaReport} (reports : List OtaReport)
    (hall : ∀ report ∈ reports, report ∈ all) (updates : List OtaVersion)
    (hupdates : ∀ row ∈ updates, Found productId deviceId all past row) :
    Prog.Spec (fun _ op => ¬op.IsPublish)
      (fun result past => ∀ rows, result = .ok rows → ∀ row ∈ rows,
        Found productId deviceId all past row)
      (processReports productId deviceId reports updates) past := by
  induction reports generalizing updates past with
  | nil => exact fun rows hrows => Except.ok.inj hrows ▸ hupdates
  | cons report reports ih =>
      obtain ⟨hreport, hrest⟩ := List.forall_mem_cons.mp hall
      unfold processReports
      cases hparse : parseSemverToInt report.version with
      | error e => exact fun _ hrows => by cases hrows
      | ok version =>
          refine ⟨id, fun now => ⟨id, fun recorded => ?_⟩⟩
          cases recorded with
          | error text => exact fun _ hrows => by cases hrows
          | ok value =>
              refine ⟨id, fun found => ?_⟩
              have hkept (row : OtaVersion) (hrow : row ∈ updates) := (((hupdates row hrow).cons
                ⟨.nowUtc, now⟩).cons (recordedEvent productId deviceId report.key version now
                  (.ok value))).cons
                (checkedEvent productId deviceId report.key version found)
              rcases found with text | _ | row
              · exact fun _ hrows => by cases hrows
              · exact ih hrest updates hkept
              · refine ih hrest (updates ++ [row]) fun other hother => ?_
                rcases List.mem_append.mp hother with hold | hlast
                · exact hkept other hold
                · rw [List.mem_singleton.mp hlast]
                  exact ⟨report, hreport, version, hparse, List.mem_cons_self⟩

-- Only a report pushes, and only what has been looked up for its entries.
def Op.PushesFound (request : Request) (past : Past) : Op → Prop
  | .postPublish publish =>
      ∀ id ack params, publish.payload = .upgrade id ack params → ∀ param ∈ params,
      ∃ msg productId report row, request = .report msg ∧ parseReport msg = .ok (productId,
        report) ∧ Found productId msg.clientId report.params past row ∧ param = upgradeParam row
  | _ => True

theorem Op.pushesFound_of_not_publish {op : Op} (h : ¬op.IsPublish) (request : Request)
    (past : Past) :
    op.PushesFound request past := by
  cases op with
  | postPublish publish => exact absurd trivial h
  | _ => trivial

variable (config : MqttConfig)

theorem otaVersionPost_found (msg : RMqttPublishMessage) :
    Prog.Spec (Op.PushesFound (.report msg)) (fun _ _ => True) (otaVersionPost config msg) [] := by
  unfold otaVersionPost
  cases hparse : parseReport msg with
  | error e => trivial
  | ok parsed =>
      obtain ⟨productId, report⟩ := parsed
      have hloop := @processReports_found productId msg.clientId [] report.params report.params
          (fun _ hmem => hmem) []
        (fun _ hrow => nomatch hrow)
      refine Prog.Spec.seq (hloop.weaken fun past op hop => Op.pushesFound_of_not_publish
        hop _ past) fun result past hfound => ?_
      cases result with
      | error e => trivial
      | ok updates =>
          have hanswer := (spec_answerReport config msg productId report updates past).keeps
            (fun past => ∀ row ∈ updates, Found productId msg.clientId report.params past row)
            (fun op answer past _ hrows row hrow => (hrows row hrow).cons _) (hfound updates rfl)
          refine (hanswer.weaken fun past op hop => ?_).mono fun _ _ _ => trivial
          obtain ⟨hpushes, hrows⟩ := hop
          cases op with
          | postPublish publish =>
              intro id ack params hpayload param hparam
              rw [hpushes id ack params hpayload] at hparam
              obtain ⟨row, hrow, rfl⟩ := List.mem_map.mp hparam
              exact ⟨msg, productId, report, row, rfl, hparse, hrows row hrow, rfl⟩
          | _ => trivial

theorem serve_found (request : Request) :
    Prog.Spec (Op.PushesFound request) (fun _ _ => True) (serve config request) [] := by
  have hadmin {program : M (Except ApiError Unit)} (h : program.Uses Op.IsAdmin) :
      Prog.Spec (Op.PushesFound request) (fun _ _ => True) program [] :=
    h.spec (fun _ => True) (fun op past hop _ => Op.pushesFound_of_not_publish hop.not_publish
      request past) (fun _ _ _ _ _ => trivial) trivial
  cases request with
  | report msg => exact otaVersionPost_found config msg
  | createOtaVersion req => exact hadmin (uses_createOtaVersion req)
  | updateOtaVersion id req => exact hadmin (uses_updateOtaVersion id req)
  | deleteOtaVersion id => exact hadmin (uses_deleteOtaVersion id)

end Pushed

section Offers

abbrev Server := Pool World Request Op.Ans (Except ApiError Unit)

-- Every row that is looked up, and every version that is pushed, upgrades the version of the
-- entry that it is looked up for, in the state of that moment.
structure OffersUpgrades (start : World) (server : Server) : Prop where
  returned : ∀ later thread productId deviceId key version row earlier,
    server.log = later ++ (thread, checkedEvent productId deviceId key version (.ok (some row))) ::
      earlier →
    RealUpgrade (Pool.replay sem start earlier) productId deviceId key version row
  pushed : ∀ later thread publish answer earlier id ack params,
    server.log = later ++ (thread, ⟨.postPublish publish, answer⟩) :: earlier →
    publish.payload = .upgrade id ack params → ∀ param ∈ params,
    ∃ served msg productId report entry version row between before,
      server.threads[thread]? = some served ∧ served.request = .report msg ∧
      parseReport msg = .ok (productId, report) ∧ entry ∈ report.params ∧
      parseSemverToInt entry.version = .ok version ∧
      earlier = between ++ (thread, checkedEvent productId msg.clientId entry.key version
        (.ok (some row))) :: before ∧
      param = upgradeParam row ∧
      RealUpgrade (Pool.replay sem start before) productId msg.clientId entry.key version row

variable (config : MqttConfig)

abbrev serving (config : MqttConfig) (moves : List (Move Request)) (start : World) : Server :=
  Pool.play sem (serve config) moves start

theorem lookup_of_log {moves : List (Move Request)} {start : World}
    {later earlier : List (Nat × Event Op.Ans)} {thread : Nat} {productId deviceId key : String}
    {version : Int32} {row : OtaVersion} (h : (serving config moves start).log =
      later ++ (thread, checkedEvent productId deviceId key version (.ok (some row))) :: earlier) :
    (Pool.replay sem start earlier).lookup productId deviceId key version = .ok (some row) :=
  (Pool.answered_play sem (serve config) moves start later _ earlier h).symm

-- Whatever versions the admin API has created, and however the requests interleave: the server
-- offers only upgrades exactly when, at every lookup that returns a row, a newer version applies.
theorem offers_upgrades_iff (start : World) (hstart : start.tables.otaVersions = [])
    (moves : List (Move Request)) :
    OffersUpgrades start (serving config moves start) ↔
      ∀ later thread productId deviceId key version row earlier,
        (serving config moves start).log =
          later ++ (thread, checkedEvent productId deviceId key version (.ok (some row))) ::
            earlier →
        NewerApplies (Pool.replay sem start earlier) productId deviceId key version := by
  have hreal {later earlier : List (Nat × Event Op.Ans)} {thread : Nat}
      {productId deviceId key : String} {version : Int32} {row : OtaVersion}
      (h : (serving config moves start).log =
        later ++ (thread, checkedEvent productId deviceId key version (.ok (some row))) ::
          earlier) :=
    realUpgrade_iff (uniqueVersions_replay hstart earlier) (lookup_of_log config h)
  constructor
  · intro hoffers later thread productId deviceId key version row earlier hlog
    exact (hreal hlog).mp (hoffers.returned _ _ _ _ _ _ _ _ hlog)
  · intro hnewer
    have hreturned : ∀ later thread productId deviceId key version row earlier,
        (serving config moves start).log =
          later ++ (thread, checkedEvent productId deviceId key version (.ok (some row))) ::
            earlier →
        RealUpgrade (Pool.replay sem start earlier) productId deviceId key version row :=
      fun _ _ _ _ _ _ _ _ hlog => (hreal hlog).mpr (hnewer _ _ _ _ _ _ _ _ hlog)
    refine ⟨hreturned, ?_⟩
    intro later thread publish answer earlier id ack params hlog hpayload param hparam
    obtain ⟨served, hserved, hallowed⟩ :=
      Pool.allowed_of_log sem (serve config) (serve_found config) moves start later earlier
        thread _ hlog
    obtain ⟨msg, productId, report, row, hrequest, hparse, hfound, hparam⟩ :=
      hallowed id ack params hpayload param hparam
    obtain ⟨entry, hentry, version, hversion, hmem⟩ := hfound
    obtain ⟨between, before, hsplit⟩ := List.append_of_mem (Pool.mem_history.mp hmem)
    refine ⟨served, msg, productId, report, entry, version, row, between, before, hserved, hrequest,
      hparse, hentry, hversion, hsplit, hparam, ?_⟩
    refine hreturned (later ++ (thread, ⟨.postPublish publish, answer⟩) :: between) thread productId
      msg.clientId entry.key version row before ?_
    rw [hlog, hsplit, List.append_assoc]
    rfl

def released (version : String) : CreateOtaVersionRequest where
  productId := "p"
  key := "main"
  version := version
  maxVersion := none
  minVersion := "0.9.0"
  fileKey := "p/main/" ++ version
  log := none
  deviceIds := none
  binLength := 0
  binMd5 := ""

-- One request after the other; a report takes four operations here.
def releaseMoves (version : String) : List (Move Request) :=
  [.spawn (.createOtaVersion (released version)), .step 0, .spawn (.report (reportOf "1.0.0")),
    .step 1, .step 1, .step 1, .step 1]

abbrev releaseLog (version : String) : List (Nat × Event Op.Ans) :=
  (serving testConfig (releaseMoves version) (World.started Tables.empty)).log

def isUpgrade : Event Op.Ans → Bool
  | ⟨.sql (.getOtaUpdate _ _ _ version), .ok (some row)⟩ => decide (version < row.version)
  | _ => true

theorem offers_upgrades_iff_newer :
    OffersUpgrades (World.started Tables.empty)
      (serving testConfig (releaseMoves "1.1.0") (World.started Tables.empty)) := by
  rw [offers_upgrades_iff testConfig (World.started Tables.empty) rfl]
  intro later thread productId deviceId key version row earlier hlog _
  have hall : (releaseLog "1.1.0").all (fun entry => isUpgrade entry.2) = true := by decide +kernel
  have hmem : (thread, checkedEvent productId deviceId key version (.ok (some row))) ∈
      releaseLog "1.1.0" := by
    rw [releaseLog, hlog]
    exact List.mem_append_right _ List.mem_cons_self
  exact ⟨row, lookup_applicable (lookup_of_log testConfig hlog),
    of_decide_eq_true (List.all_eq_true.mp hall _ hmem)⟩

-- The version that the device already runs.
def current : OtaVersion :=
  { offered with version := 100000, minVersion := 9000, fileKey := "p/main/1.0.0" }

-- It is the only version, and is offered to the device and pushed to it.
theorem same_version_offered :
    ¬OffersUpgrades (World.started Tables.empty)
        (serving testConfig (releaseMoves "1.0.0") (World.started Tables.empty)) ∧
      (releaseLog "1.0.0").countP (fun entry => isPush entry.2) = 1 := by
  refine ⟨fun h => ?_, by decide +kernel⟩
  have hlookup : (releaseLog "1.0.0")[1]? =
      some (1, checkedEvent "p" "d" "main" 100000 (.ok (some current))) := rfl
  obtain ⟨hlt, hget⟩ := List.getElem?_eq_some_iff.mp hlookup
  have hsplit : releaseLog "1.0.0" = (releaseLog "1.0.0").take 1 ++
      (1, checkedEvent "p" "d" "main" 100000 (.ok (some current))) ::
        (releaseLog "1.0.0").drop 2 := by
    rw [← hget, List.getElem_cons_drop, List.take_append_drop]
  exact absurd (h.returned _ _ _ _ _ _ _ _ hsplit).newer (by decide)

end Offers

end RmqttThings.Ota
