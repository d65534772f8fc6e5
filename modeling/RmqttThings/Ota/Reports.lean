import RmqttThings.Effects.Hoare
import RmqttThings.Ota.Handlers

namespace RmqttThings.Ota

open Effects
open Api (ApiError databaseError)

abbrev VersionTable := VersionKey → Option DeviceVersion

-- An entry with a well-formed version, and the instant at which the clock is read for it.
structure Visit where
  key : String
  version : Int32
  instant : OffsetDateTime

-- The entries before the first malformed one. Each of them takes three operations.
def visits (clock : OffsetDateTime) (delays : Nat → Nat) : List OtaReport → List Visit
  | [] => []
  | report :: reports =>
      match parseSemverToInt report.version with
      | .error _ => []
      | .ok version =>
          ⟨report.key, version, clock + delays 0⟩ ::
            visits (clock + delays 0 + delays 1 + delays 2) (fun n => delays (n + 3)) reports

section Visits

variable {clock : OffsetDateTime} {delays : Nat → Nat} {reports : List OtaReport}

theorem le_delayed (clock : Int) (delay : Nat) : clock ≤ clock + delay := by
  omega

theorem clock_le_of_mem_visits {visit : Visit} (h : visit ∈ visits clock delays reports) :
    clock ≤ visit.instant := by
  induction reports generalizing clock delays with
  | nil => simp [visits] at h
  | cons report reports ih =>
      simp only [visits] at h
      split at h
      · cases h
      · rcases List.mem_cons.mp h with rfl | hrest
        · exact le_delayed clock _
        · have hfirst := (le_delayed clock (delays 0)).trans (le_delayed _ (delays 1))
          exact (hfirst.trans (le_delayed _ (delays 2))).trans (ih hrest)

-- The clock does not go back from one entry to the next.
theorem visits_sorted :
    (visits clock delays reports).Pairwise fun visit next => visit.instant ≤ next.instant := by
  induction reports generalizing clock delays with
  | nil => simp [visits]
  | cons report reports ih =>
      simp only [visits]
      split
      · exact List.Pairwise.nil
      · refine List.Pairwise.cons (fun next hnext => ?_) ih
        exact ((le_delayed _ (delays 1)).trans (le_delayed _ (delays 2))).trans
          (clock_le_of_mem_visits hnext)

end Visits

section Record

variable (productId deviceId : String)

def record (t : VersionTable) (visit : Visit) : VersionTable :=
  Function.update t (productId, deviceId, visit.key)
    (some (upsertRow (t (productId, deviceId, visit.key)) visit.version visit.instant))

def recordAll (t : VersionTable) (done : List Visit) : VersionTable :=
  done.foldl (record productId deviceId) t

variable (t : VersionTable)

theorem recordAll_append (front back : List Visit) :
    recordAll productId deviceId t (front ++ back) =
      recordAll productId deviceId (recordAll productId deviceId t front) back := List.foldl_append

theorem record_self (visit : Visit) :
    record productId deviceId t visit (productId, deviceId, visit.key) =
      some (upsertRow (t (productId, deviceId, visit.key)) visit.version visit.instant) := by
  simp [record]

theorem recordAll_of_not_visited {key : VersionKey} {done : List Visit}
    (h : ∀ visit ∈ done, key ≠ (productId, deviceId, visit.key)) :
    recordAll productId deviceId t done key = t key := by
  induction done generalizing t with
  | nil => rfl
  | cons visit done ih =>
      have hrest := ih (record productId deviceId t visit) fun other hother =>
          h other (List.mem_cons_of_mem _ hother)
      have hfirst := h visit List.mem_cons_self
      exact hrest.trans (Function.update_of_ne hfirst _ _)

end Record

section Loop

variable (productId deviceId : String)

-- No entry is malformed.
def WellFormed (reports : List OtaReport) : Prop :=
  ∀ report ∈ reports, ∃ version, parseSemverToInt report.version = .ok version

-- What the loop has left behind: it has recorded the entries before the first malformed one, or
-- fewer when the database fails.
def Recorded {α : Type} (w : World) (reports : List OtaReport) (result : Except ApiError α)
    (t : Tables) : Prop :=
  ∃ done, done <+: visits w.clock w.delays reports ∧
    t = { w.tables with
      deviceVersions := recordAll productId deviceId w.tables.deviceVersions done } ∧
    (result ≠ .error databaseError → done = visits w.clock w.delays reports) ∧
    (∀ value, result = .ok value → WellFormed reports)

variable {productId deviceId} {report : OtaReport} {reports : List OtaReport} {version : Int32}
  {w w₁ : World} {result : Except ApiError (List OtaVersion)} {t : Tables}

theorem visits_cons {clock : OffsetDateTime} {delays : Nat → Nat}
    (hparse : parseSemverToInt report.version = .ok version) :
    visits clock delays (report :: reports) = ⟨report.key, version, clock + delays 0⟩ ::
      visits (clock + delays 0 + delays 1 + delays 2) (fun n => delays (n + 3)) reports := by
  simp [visits, hparse]

-- The tables after the upsert of an entry.
def World.recorded (w : World) (productId deviceId : String) (report : OtaReport)
    (version : Int32) : Tables :=
  { w.tables with
    deviceVersions := record productId deviceId w.tables.deviceVersions ⟨report.key, version,
      w.clock + w.delays 0⟩ }

theorem Recorded.cons (hparse : parseSemverToInt report.version = .ok version)
    (hclock : w₁.clock = w.clock + w.delays 0 + w.delays 1 + w.delays 2)
    (hdelays : w₁.delays = fun n => w.delays (n + 3))
    (htables : w₁.tables = w.recorded productId deviceId report version)
    (h : Recorded productId deviceId w₁ reports result t) :
    Recorded productId deviceId w (report :: reports) result t := by
  obtain ⟨done, hprefix, hdone, hall, hformed⟩ := h
  rw [hclock, hdelays] at hprefix hall
  refine ⟨⟨report.key, version, w.clock + w.delays 0⟩ :: done, ?_, ?_, fun hresult => ?_,
    fun value hvalue => ?_⟩
  · rw [visits_cons hparse]
    exact List.cons_prefix_cons.mpr ⟨rfl, hprefix⟩
  · rw [hdone, htables]
    rfl
  · rw [visits_cons hparse, hall hresult]
  · exact List.forall_mem_cons.mpr ⟨⟨version, hparse⟩, hformed value hvalue⟩

-- The upsert of an entry, as the loop runs it.
theorem upsert_recorded {value : Unit}
    (h : (sem (.sql (.upsertDeviceVersion productId deviceId report.key version
      (w.clock + w.delays 0))) w.tick).1 =
      .ok value) :
    (sem (.sql (.upsertDeviceVersion productId deviceId report.key version (w.clock + w.delays 0)))
      w.tick).2.tables =
      w.recorded productId deviceId report version := by
  rw [(sem_sql_ok h).2]
  rfl

theorem lookup_tables {productId deviceId key : String} :
    (sem (.sql (.getOtaUpdate productId deviceId key version)) w).2.tables = w.tables := by
  cases hlookup : (sem (.sql (.getOtaUpdate productId deviceId key version)) w).1 with
  | error text => exact sem_sql_error hlookup
  | ok found => exact (sem_sql_ok hlookup).2

-- One entry of the loop. It fails with or without a record, or the rest of the loop runs on the
-- tables with the record, and with what the entry has been looked up to.
theorem wp_processReports_cons (hparse : parseSemverToInt report.version = .ok version)
    {updates : List OtaVersion} {post : Except ApiError (List OtaVersion) → Past → World → Prop}
    {past : Past}
    (hfail : ∀ past w', w'.tables = w.tables ∨ w'.tables = w.recorded productId deviceId report
      version → post (.error databaseError) past w')
    (hnext : ∀ past w', w'.tables = w.recorded productId deviceId report version →
      w'.clock = w.clock + w.delays 0 + w.delays 1 + w.delays 2 →
        w'.delays = (fun n => w.delays (n + 3)) →
      (processReports productId deviceId reports
        (updates ++ (w.tables.otaUpdate w'.clock productId deviceId report.key version).toList)).wp
          sem post past w') :
    (processReports productId deviceId (report :: reports) updates).wp sem post past w := by
  unfold processReports
  simp only [hparse, nowUtc, query, Prog.bind_eq, Prog.perform_bind, Prog.wp_call, sem_nowUtc]
  cases hupsert : (sem (.sql (.upsertDeviceVersion productId deviceId report.key version
      (w.clock + w.delays 0))) w.tick).1 with
  | error text =>
      refine hfail _ _ (.inl ?_)
      rw [sem_sql_error hupsert]
      rfl
  | ok value =>
      have htables := upsert_recorded hupsert
      generalize hw : (sem (.sql (.upsertDeviceVersion productId deviceId report.key version
        (w.clock + w.delays 0))) w.tick).2 = w₁ at htables ⊢
      have hclock : w₁.clock = w.clock + w.delays 0 + w.delays 1 := by
        rw [← hw]
        simp
      have hdelays : w₁.delays = fun n => w.delays (n + 2) := by
        rw [← hw]
        simp
      have hrows (now : OffsetDateTime) :
          w₁.tables.otaUpdate now productId deviceId report.key version =
          w.tables.otaUpdate now productId deviceId report.key version := by
        rw [htables]
        rfl
      have hrest (past : Past) :=
        hnext past (sem (.sql (.getOtaUpdate productId deviceId report.key version)) w₁).2
        (lookup_tables.trans htables) (by rw [sem_clock, hclock, hdelays])
          (by rw [sem_delays, hdelays])
      simp only [Prog.wp_call]
      cases hlookup : (sem (.sql (.getOtaUpdate productId deviceId report.key version)) w₁).1 with
      | error text => exact hfail _ _ (.inr (lookup_tables.trans htables))
      | ok found =>
          have hfound : w.tables.otaUpdate
              (sem (.sql (.getOtaUpdate productId deviceId report.key version)) w₁).2.clock
              productId deviceId report.key version = found := by
            rw [sem_clock, ← hrows]
            exact Except.ok.inj (sem_sql_ok hlookup).1
          rw [hfound] at hrest
          cases found with
          | none => simpa using hrest _
          | some row => exact hrest _

variable (productId deviceId) in
theorem processReports_recorded (reports : List OtaReport) (updates : List OtaVersion)
    (past : Past) (w : World) :
    (processReports productId deviceId reports updates).wp sem
      (fun result _ w' => Recorded productId deviceId w reports result w'.tables) past w := by
  induction reports generalizing updates past w with
  | nil =>
      exact ⟨[], List.nil_prefix, rfl, fun _ => rfl, fun _ _ report hmem =>
        absurd hmem List.not_mem_nil⟩
  | cons report reports ih =>
      cases hparse : parseSemverToInt report.version with
      | error e =>
          unfold processReports
          rw [hparse]
          exact ⟨[], List.nil_prefix, rfl, fun _ => by simp [visits, hparse], fun _ h => nomatch h⟩
      | ok version =>
          refine wp_processReports_cons hparse (fun past w' htables => ?_)
            fun past w' htables hclock hdelays => ?_
          · rcases htables with htables | htables
            · exact ⟨[], List.nil_prefix, htables, fun h => absurd rfl h, fun _ h => nomatch h⟩
            · refine ⟨[⟨report.key, version, w.clock + w.delays 0⟩], ?_, htables,
                fun h => absurd rfl h, fun _ h => nomatch h⟩
              rw [visits_cons hparse]
              exact List.cons_prefix_cons.mpr ⟨rfl, List.nil_prefix⟩
          · exact Prog.wp_mono (ih _ past w') fun _ _ _ h => h.cons hparse hclock hdelays htables

-- The answer of the handler says no more than that of the loop.
theorem Recorded.answered {α : Type} {answer : Except ApiError α}
    (h : Recorded productId deviceId w reports result t)
    (hfailed : result = .error databaseError → answer = .error databaseError)
    (hok : ∀ value, answer = .ok value → ∃ rows, result = .ok rows) :
    Recorded productId deviceId w reports answer t := by
  obtain ⟨done, hprefix, hdone, hall, hformed⟩ := h
  refine ⟨done, hprefix, hdone, fun hanswer => hall fun hresult => hanswer (hfailed hresult),
    fun value hvalue => ?_⟩
  obtain ⟨rows, hrows⟩ := hok value hvalue
  exact hformed rows hrows

end Loop

section Handler

variable (config : MqttConfig)

def Op.IsPublish : Op → Prop
  | .postPublish _ => True
  | _ => False

-- A publication that pushes no other upgrades than these.
def Op.Pushes (updates : List OtaVersion) : Op → Prop
  | .postPublish request =>
      ∀ id ack params, request.payload = .upgrade id ack params → params = updates.map upgradeParam
  | _ => False

theorem Op.Pushes.isPublish {updates : List OtaVersion} {op : Op} (h : op.Pushes updates) :
    op.IsPublish := by
  cases op with
  | postPublish request => trivial
  | _ => exact h

theorem tables_of_publish {op : Op} (h : op.IsPublish) (w : World) :
    (sem op w).2.tables = w.tables := by
  cases op with
  | postPublish request => rfl
  | _ => exact absurd h id

variable (msg : RMqttPublishMessage) (productId : String) (params : OtaReportParams)

theorem spec_publishAttempts {updates : List OtaVersion} {request : PublishRequest}
    (h : (Op.postPublish request).Pushes updates) (attempts : Nat) (past : Past) :
    Prog.Spec (fun _ op => op.Pushes updates) (fun _ _ => True) (publishAttempts request attempts)
      past := by
  induction attempts generalizing past with
  | zero => trivial
  | succ attempts ih =>
      refine ⟨h, fun reply => ?_⟩
      by_cases h : reply.isSuccess
      · simp [h]
      · simpa [h] using ih _

-- What is answered when the push fails: no bad request, and no failure of the database.
def PushFailure (e : ApiError) : Prop := e.status = .internalServerError ∧ e ≠ databaseError

theorem spec_pushUpdates (deviceId id : String) (updates : List OtaVersion) (past : Past) :
    Prog.Spec (fun _ op => op.Pushes updates) (fun answer _ => ∀ e, answer = .error e →
      PushFailure e) (pushUpdates config productId deviceId id updates) past := by
  unfold pushUpdates
  by_cases hempty : updates.isEmpty = true
  · simp [hempty]
  · simp only [hempty]
    have hpush : (Op.postPublish (upgradeRequest config productId deviceId id updates)).Pushes
        updates := by
      intro _ _ params hpayload
      cases hpayload
      rfl
    refine Prog.Spec.seq (spec_publishAttempts hpush _ past) fun sent past _ => ?_
    cases sent <;> simp [PushFailure, databaseError, ApiError.internal]

-- What follows the loop only publishes.
theorem spec_answerReport (updates : List OtaVersion) (past : Past) :
    Prog.Spec (fun _ op => op.Pushes updates) (fun answer _ => ∀ e, answer = .error e →
      PushFailure e) (answerReport config msg productId params updates) past := by
  unfold answerReport
  by_cases hack : params.ack = .yes
  · simp only [hack, if_true]
    exact ⟨fun _ _ _ hpayload => (nomatch hpayload),
      fun _ => spec_pushUpdates config productId _ _ updates _⟩
  · simp only [hack, if_false]
    exact spec_pushUpdates config productId _ _ updates _

variable {msg productId params}

theorem otaVersionPost_recorded (hparse : parseReport msg = .ok (productId, params)) (past : Past)
    (w : World) :
    (otaVersionPost config msg).wp sem
      (fun answer _ w' => Recorded productId msg.clientId w params.params answer w'.tables)
      past w := by
  unfold otaVersionPost
  rw [hparse]
  refine Prog.wp_seq (processReports_recorded productId msg.clientId params.params [] past w)
    fun result past w' h => ?_
  cases result with
  | error e =>
      exact h.answered (fun hresult => by rw [Except.error.inj hresult])
        (fun _ hvalue => nomatch hvalue)
  | ok updates =>
      refine Prog.wp_mono ((spec_answerReport config msg productId params updates past).wp
        (fun _ w₁ => w₁.tables = w'.tables) (fun op _ w₁ hop htables =>
          (tables_of_publish hop.isPublish w₁).trans htables)
        rfl) ?_
      rintro answer _ w₁ ⟨hanswer, htables⟩
      rw [htables]
      exact h.answered (fun hresult => nomatch hresult) fun _ _ => ⟨updates, rfl⟩

-- The run of the handler alone, from its answer.
theorem run_recorded (hparse : parseReport msg = .ok (productId, params)) (w : World) :
    Recorded productId msg.clientId w params.params ((otaVersionPost config msg).run sem w).1
      ((otaVersionPost config msg).final sem w).tables :=
  (Prog.wp_iff _ _ _).mp (otaVersionPost_recorded config hparse [] w)

-- The upgrades that a run has pushed.
def Pushes (past : Past) (params : List UpgradeParam) : Prop :=
  ∃ request answer id ack, (⟨.postPublish request, answer⟩ : Event Op.Ans) ∈ past ∧
    request.payload = .upgrade id ack params

variable (productId) in
theorem uses_processReports (deviceId : String) (reports : List OtaReport)
    (updates : List OtaVersion) :
    (processReports productId deviceId reports updates).Uses fun op => ¬op.IsPublish := by
  induction reports generalizing updates with
  | nil => trivial
  | cons report reports ih =>
      unfold processReports
      cases parseSemverToInt report.version with
      | error e => trivial
      | ok version =>
          refine ⟨id, fun instant => ⟨id, fun recorded => ?_⟩⟩
          cases recorded with
          | error text => trivial
          | ok value =>
              refine ⟨id, fun found => ?_⟩
              rcases found with text | _ | row
              · trivial
              · exact ih updates
              · exact ih _

variable (msg) in
-- A bad request is answered before anything is published.
theorem spec_badRequest :
    Prog.Spec (fun _ _ => True)
      (fun answer past => (∃ e, answer = .error e ∧ e.status = .badRequest) → ∀ event ∈ past,
        ¬event.1.IsPublish)
      (otaVersionPost config msg) [] := by
  unfold otaVersionPost
  cases hparse : parseReport msg with
  | error e => exact fun _ event hmem => absurd hmem List.not_mem_nil
  | ok parsed =>
      have hloop : Prog.Spec (fun _ _ => True) (fun _ past => ∀ event ∈ past, ¬event.1.IsPublish)
          (processReports parsed.1 msg.clientId parsed.2.params []) [] :=
        (uses_processReports parsed.1 msg.clientId parsed.2.params []).spec
          (fun past => ∀ event ∈ past, ¬event.1.IsPublish) (fun _ _ _ _ => trivial)
          (fun op answer past hop hpast => List.forall_mem_cons.mpr ⟨hop, hpast⟩)
          (fun event hmem => absurd hmem List.not_mem_nil)
      refine Prog.Spec.seq hloop fun result past hquiet => ?_
      cases result with
      | error e => exact fun _ => hquiet
      | ok updates =>
          refine Prog.Spec.mono
            ((spec_answerReport config msg parsed.1 parsed.2 updates past).weaken fun _ _ _ =>
            trivial) ?_
          rintro answer later hanswer ⟨e, he, hstatus⟩
          have hfailure := (hanswer e he).1
          rw [hstatus] at hfailure
          cases hfailure

end Handler

end RmqttThings.Ota
