import RmqttThings.Factory.Transactions

namespace RmqttThings.Factory

open Effects.Transactions
open Effects.RowLock (Move)

-- The contents of a metadata row: its snapshot, and the time of its last upsert.
structure Contents where
  snapshot : Json
  updatedAt : OffsetDateTime

-- What the tables hold of one serial number: the contents of its rows, and its change log.
structure History where
  component : Option Contents
  device : Option Contents
  log : List ChangeLogRow

def Tables.logOf (t : Tables) (sn : String) : List ChangeLogRow :=
  t.changeLog.filter fun row => row.sn == sn

-- The call is a metadata upsert of the serial number.
def concerns (sn : String) (request : Call × OffsetDateTime) : Bool :=
  match request.1 with
  | .component report => report.componentSn == sn
  | .device report => report.deviceSn == sn
  | .associations _ _ => false

-- The row of the log of one upsert.
def logged (sn : String) (now : OffsetDateTime) (before : Option Contents) (after : Contents) :
    List ChangeLogRow :=
  match before with
  | none => []
  | some before => [⟨sn, before.snapshot, after.snapshot, "factory", now⟩]

section Contents

variable (encode : OffsetDateTime → Json) (sn : String)

def ComponentRow.contents (row : ComponentRow) : Contents := ⟨row.snapshot encode, row.updatedAt⟩

def DeviceRow.contents (row : DeviceRow) : Contents := ⟨row.snapshot encode, row.updatedAt⟩

def Heap.history (heap : Heap) : History where
  component := (heap.tables.components sn).map (·.contents encode)
  device := (heap.tables.devices sn).map (·.contents encode)
  log := heap.tables.logOf sn

-- The contents that an upsert writes.
def content (request : Call × OffsetDateTime) : Contents :=
  match request.1 with
  | .component report =>
      ComponentRow.contents encode
        ⟨report.componentType, report.metadata, report.fileAttachments, request.2, request.2⟩
  | .device report =>
      DeviceRow.contents encode ⟨report.metadata, report.fileAttachments, request.2, request.2⟩
  | .associations _ _ => ⟨.null, request.2⟩

def History.upsert (history : History) (request : Call × OffsetDateTime) : History :=
  let after := content encode request
  match request.1 with
  | .component _ => { history with
      component := some after, log := history.log ++ logged sn request.2 history.component after }
  | .device _ => { history with
      device := some after, log := history.log ++ logged sn request.2 history.device after }
  | .associations _ _ => history

-- A transaction that has the lock: the history that it has found, and its own version of it.
inductive Owning (request : Call × OffsetDateTime) : Phase → History → History → Prop where
  | locked (before : History) : Owning request .locked before before
  | readComponent (before : History) (report : ComponentReport) (row : Option ComponentRow) :
      request.1 = .component report → row.map (·.contents encode) = before.component →
      Owning request (.readComponent row) before before
  | readDevice (before : History) (report : DeviceReport) (row : Option DeviceRow) :
      request.1 = .device report → row.map (·.contents encode) = before.device →
      Owning request (.readDevice row) before before
  | overwrittenComponent (before : History) (report : ComponentReport) (old : Contents) :
      request.1 = .component report → before.component = some old →
      Owning request (.overwritten old.snapshot (content encode request).snapshot) before
        { before with component := some (content encode request) }
  | overwrittenDevice (before : History) (report : DeviceReport) (old : Contents) :
      request.1 = .device report → before.device = some old →
      Owning request (.overwritten old.snapshot (content encode request).snapshot) before
        { before with device := some (content encode request) }
  | written (before : History) : Owning request .written before (before.upsert encode sn request)

end Contents

section Statements

variable {encode : OffsetDateTime → Json} {sn : String} (heap : Heap) (now : OffsetDateTime)

theorem history_insertComponent (report : ComponentReport) (h : report.componentSn = sn) :
    (heap.update (·.insertComponent now report)).history encode sn =
      { heap.history encode sn with
        component := some (content encode (.component report, now)) } := by
  subst h
  simp [Heap.history, Heap.update, Tables.insertComponent, Tables.logOf, content,
    ComponentRow.contents, ComponentRow.snapshot]

theorem history_insertComponent_ne (report : ComponentReport) (h : report.componentSn ≠ sn) :
    (heap.update (·.insertComponent now report)).history encode sn = heap.history encode sn := by
  simp [Heap.history, Heap.update, Tables.insertComponent, Tables.logOf,
    Function.update_of_ne (Ne.symm h)]

theorem history_insertDevice (report : DeviceReport) (h : report.deviceSn = sn) :
    (heap.update (·.insertDevice now report)).history encode sn =
      { heap.history encode sn with device := some (content encode (.device report, now)) } := by
  subst h
  simp [Heap.history, Heap.update, Tables.insertDevice, Tables.logOf, content, DeviceRow.contents,
    DeviceRow.snapshot]

theorem history_insertDevice_ne (report : DeviceReport) (h : report.deviceSn ≠ sn) :
    (heap.update (·.insertDevice now report)).history encode sn = heap.history encode sn := by
  simp [Heap.history, Heap.update, Tables.insertDevice, Tables.logOf,
    Function.update_of_ne (Ne.symm h)]

theorem history_appendChangeLog (before after : Json) :
    (heap.update (·.appendChangeLog now sn before after)).history encode sn =
      { heap.history encode sn with
        log := (heap.history encode sn).log ++ [⟨sn, before, after, "factory", now⟩] } := by
  simp [Heap.history, Heap.update, Tables.appendChangeLog, Tables.logOf]

theorem history_appendChangeLog_ne {other : String} (before after : Json) (h : other ≠ sn) :
    (heap.update (·.appendChangeLog now other before after)).history encode sn =
      heap.history encode sn := by
  simp [Heap.history, Heap.update, Tables.appendChangeLog, Tables.logOf, h]

end Statements

section Guarding

variable {hash : String → Int} {encode : OffsetDateTime → Json} {sn : String} {now : OffsetDateTime}
    {phase phase' : Phase}
  {view : Heap} {locks : List LockKey} {change : Heap → Heap}

-- What the statements of an upsert can be.
theorem nextComponent_statement {report : ComponentReport}
    (h : nextComponent hash encode now report phase view = .statement locks change phase') :
    (phase = .begun ∧ locks = [.sn (hash report.componentSn)] ∧ change = id ∧ phase' = .locked) ∨
    (phase = .locked ∧ locks = [] ∧ change = id ∧
      phase' = .readComponent (view.tables.components report.componentSn)) ∨
    (∃ before, phase = .readComponent before ∧ locks = [.component report.componentSn] ∧
      change = Heap.update (·.insertComponent now report) ∧
      phase' = before.elim .written fun before =>
        .overwritten (before.snapshot encode) (content encode (.component report, now)).snapshot) ∨
    (∃ before after, phase = .overwritten before after ∧ locks = [] ∧
      change = Heap.update (·.appendChangeLog now report.componentSn before after) ∧
        phase' = .written) := by
  cases phase with
  | readComponent before =>
      cases before with
      | none =>
          simp only [nextComponent, Action.statement.injEq] at h
          exact .inr (.inr (.inl ⟨none, rfl, h.1.symm, h.2.1.symm, h.2.2.symm⟩))
      | some before =>
          have hafter : ((view.update (·.insertComponent now report)).tables.components
              report.componentSn) =
              some ⟨report.componentType, report.metadata, report.fileAttachments, now,
                ((view.tables.components report.componentSn).map (·.createdAt)).getD now⟩ := by
            simp [Heap.update, Tables.insertComponent]
          simp only [nextComponent, hafter, Action.statement.injEq] at h
          exact .inr (.inr (.inl ⟨some before, rfl, h.1.symm, h.2.1.symm, h.2.2.symm⟩))
  | _ => simp_all [nextComponent]

theorem nextDevice_statement {report : DeviceReport}
    (h : nextDevice hash encode now report phase view = .statement locks change phase') :
    (phase = .begun ∧ locks = [.sn (hash report.deviceSn)] ∧ change = id ∧ phase' = .locked) ∨
    (phase = .locked ∧ locks = [] ∧ change = id ∧
      phase' = .readDevice (view.tables.devices report.deviceSn)) ∨
    (∃ before, phase = .readDevice before ∧ locks = [.device report.deviceSn] ∧
      change = Heap.update (·.insertDevice now report) ∧
      phase' = before.elim .written fun before =>
        .overwritten (before.snapshot encode) (content encode (.device report, now)).snapshot) ∨
    (∃ before after, phase = .overwritten before after ∧ locks = [] ∧
      change = Heap.update (·.appendChangeLog now report.deviceSn before after) ∧
        phase' = .written) := by
  cases phase with
  | readDevice before =>
      cases before with
      | none =>
          simp only [nextDevice, Action.statement.injEq] at h
          exact .inr (.inr (.inl ⟨none, rfl, h.1.symm, h.2.1.symm, h.2.2.symm⟩))
      | some before =>
          have hafter : ((view.update (·.insertDevice now report)).tables.devices report.deviceSn) =
              some ⟨report.metadata, report.fileAttachments, now,
                ((view.tables.devices report.deviceSn).map (·.createdAt)).getD now⟩ := by
            simp [Heap.update, Tables.insertDevice]
          simp only [nextDevice, hafter, Action.statement.injEq] at h
          exact .inr (.inr (.inl ⟨some before, rfl, h.1.symm, h.2.1.symm, h.2.2.symm⟩))
  | _ => simp_all [nextDevice]

theorem nextAssociations_history {deviceSn : String} {components : List ComponentAssociationInput}
    (h : nextAssociations now deviceSn components phase view = .statement locks change phase')
    (heap : Heap) :
    (change heap).history encode sn = heap.history encode sn := by
  obtain ⟨-, rfl, -⟩ | ⟨-, rfl, -⟩ | ⟨row, rows, -, -, rfl, -⟩ | ⟨row, rows, -, -, rfl, -⟩ |
    ⟨item, items, -, rfl, -⟩ := nextAssociations_statement h
  · rfl
  · rfl
  · rfl
  · rfl
  · rfl

-- The upserts of other serial numbers, and the replaces.
theorem history_foreign {request : Call × OffsetDateTime} (hforeign : concerns sn request = false)
    (h : (code hash encode).next request phase view = .statement locks change phase')
    (heap : Heap) :
    (change heap).history encode sn = heap.history encode sn := by
  obtain ⟨call, now⟩ := request
  cases call with
  | component report =>
      have hne : report.componentSn ≠ sn := by simpa [concerns] using hforeign
      obtain ⟨-, -, rfl, -⟩ | ⟨-, -, rfl, -⟩ | ⟨before, -, -, rfl, -⟩ | ⟨before, after, -, -,
          rfl, -⟩ :=
        nextComponent_statement h
      · rfl
      · rfl
      · exact history_insertComponent_ne heap now report hne
      · exact history_appendChangeLog_ne heap now before after hne
  | device report =>
      have hne : report.deviceSn ≠ sn := by simpa [concerns] using hforeign
      obtain ⟨-, -, rfl, -⟩ | ⟨-, -, rfl, -⟩ | ⟨before, -, -, rfl, -⟩ | ⟨before, after, -, -,
          rfl, -⟩ :=
        nextDevice_statement h
      · rfl
      · rfl
      · exact history_insertDevice_ne heap now report hne
      · exact history_appendChangeLog_ne heap now before after hne
  | associations deviceSn components => exact nextAssociations_history h heap

-- The first statement takes the lock of the serial number and changes nothing.
theorem lock_metadata_sn {request : Call × OffsetDateTime}
    (hconcerns : concerns sn request = true) :
    (code hash encode).next request .begun view = .statement [.sn (hash sn)] id .locked := by
  obtain ⟨call, now⟩ := request
  cases call with
  | component report =>
      have hsn : report.componentSn = sn := by simpa [concerns] using hconcerns
      simp [code, nextComponent, hsn]
  | device report =>
      have hsn : report.deviceSn = sn := by simpa [concerns] using hconcerns
      simp [code, nextDevice, hsn]
  | associations deviceSn components => simp [concerns] at hconcerns

theorem owning_component {report : ComponentReport} (hsn : report.componentSn = sn)
    {before : History}
    (howning : Owning encode sn (.component report, now) phase before (view.history encode sn))
    (h : nextComponent hash encode now report phase view = .statement locks change phase') :
    ∃ own, Owning encode sn (.component report, now) phase' before own ∧
      ∀ heap : Heap, heap.history encode sn = view.history encode sn →
        (change heap).history encode sn = own := by
  obtain ⟨rfl, -, -, -⟩ | ⟨rfl, -, rfl, rfl⟩ | ⟨row, rfl, -, rfl, rfl⟩ | ⟨old, after, rfl, -,
      rfl, rfl⟩ :=
    nextComponent_statement h
  · cases howning
  · generalize hhistory : view.history encode sn = history at howning
    cases howning
    refine ⟨_, .readComponent _ report _ rfl ?_, fun heap hheap => hheap⟩
    rw [← hhistory, hsn]
    rfl
  · generalize hhistory : view.history encode sn = history at howning
    cases howning with
    | readComponent _ _ _ _ hrow =>
        cases row with
        | none =>
            refine ⟨_, .written _, ?_⟩
            intro heap hheap
            rw [history_insertComponent heap now report hsn, hheap, History.upsert, ← hrow]
            simp [logged]
        | some row =>
            refine ⟨_, .overwrittenComponent before report (row.contents encode) rfl hrow.symm, ?_⟩
            intro heap hheap
            rw [history_insertComponent heap now report hsn, hheap]
  · generalize hhistory : view.history encode sn = history at howning
    cases howning with
    | overwrittenComponent _ _ _ _ hrow =>
        refine ⟨_, .written _, ?_⟩
        intro heap hheap
        rw [hsn, history_appendChangeLog, hheap, History.upsert, hrow]
        simp [logged]
    | overwrittenDevice _ _ _ hcall => simp at hcall

theorem owning_device {report : DeviceReport} (hsn : report.deviceSn = sn) {before : History}
    (howning : Owning encode sn (.device report, now) phase before (view.history encode sn))
    (h : nextDevice hash encode now report phase view = .statement locks change phase') :
    ∃ own, Owning encode sn (.device report, now) phase' before own ∧
      ∀ heap : Heap, heap.history encode sn = view.history encode sn →
        (change heap).history encode sn = own := by
  obtain ⟨rfl, -, -, -⟩ | ⟨rfl, -, rfl, rfl⟩ | ⟨row, rfl, -, rfl, rfl⟩ | ⟨old, after, rfl, -,
      rfl, rfl⟩ :=
    nextDevice_statement h
  · cases howning
  · generalize hhistory : view.history encode sn = history at howning
    cases howning
    refine ⟨_, .readDevice _ report _ rfl ?_, fun heap hheap => hheap⟩
    rw [← hhistory, hsn]
    rfl
  · generalize hhistory : view.history encode sn = history at howning
    cases howning with
    | readDevice _ _ _ _ hrow =>
        cases row with
        | none =>
            refine ⟨_, .written _, ?_⟩
            intro heap hheap
            rw [history_insertDevice heap now report hsn, hheap, History.upsert, ← hrow]
            simp [logged]
        | some row =>
            refine ⟨_, .overwrittenDevice before report (row.contents encode) rfl hrow.symm, ?_⟩
            intro heap hheap
            rw [history_insertDevice heap now report hsn, hheap]
  · generalize hhistory : view.history encode sn = history at howning
    cases howning with
    | overwrittenComponent _ _ _ hcall => simp at hcall
    | overwrittenDevice _ _ _ _ hrow =>
        refine ⟨_, .written _, ?_⟩
        intro heap hheap
        rw [hsn, history_appendChangeLog, hheap, History.upsert, hrow]
        simp [logged]

theorem next_commit {request : Call × OffsetDateTime} (hconcerns : concerns sn request = true)
    (h : (code hash encode).next request phase view = .commit) : phase = .written := by
  obtain ⟨call, now⟩ := request
  cases call with
  | component report =>
      cases phase with
      | written => rfl
      | readComponent before =>
          simp only [code, nextComponent] at h
          split at h <;> simp at h
      | _ => simp [code, nextComponent] at h
  | device report =>
      cases phase with
      | written => rfl
      | readDevice before =>
          simp only [code, nextDevice] at h
          split at h <;> simp at h
      | _ => simp [code, nextDevice] at h
  | associations deviceSn components => simp [concerns] at hconcerns

-- The lock of a serial number guards its rows and its change log.
theorem history_guarded (hash : String → Int) (encode : OffsetDateTime → Json) (sn : String) :
    Guards (code hash encode) (.sn (hash sn)) (Heap.history encode sn) (concerns sn)
      (History.upsert encode sn) (fun _ phase => phase = .begun) (Owning encode sn) where
  foreign := fun hforeign h => history_foreign hforeign h
  first := fun _ => rfl
  waiting := by
    rintro request phase view locks change phase' hconcerns rfl h
    rw [lock_metadata_sn hconcerns, Action.statement.injEq] at h
    obtain ⟨rfl, rfl, rfl⟩ := h
    rw [if_pos (by simp)]
    exact ⟨_, .locked _, fun heap hheap => hheap⟩
  waits := by
    rintro request phase view hconcerns rfl h
    simp [lock_metadata_sn hconcerns] at h
  owning := by
    rintro ⟨call, now⟩ phase view before locks change phase' hconcerns howning h
    cases call with
    | component report => exact owning_component (by simpa [concerns] using hconcerns) howning h
    | device report => exact owning_device (by simpa [concerns] using hconcerns) howning h
    | associations deviceSn components => simp [concerns] at hconcerns
  commits := by
    intro request phase view before hconcerns howning h
    obtain rfl := next_commit hconcerns h
    generalize view.history encode sn = history at howning
    cases howning
    rfl

end Guarding

inductive Namespace where
  | component
  | device

def Namespace.of : Call → Option Namespace
  | .component _ => some .component
  | .device _ => some .device
  | .associations _ _ => none

-- The contents of the row of the namespace.
def History.current (history : History) : Namespace → Option Contents
  | .component => history.component
  | .device => history.device

section Chain

variable {encode : OffsetDateTime → Json} {sn : String} {space : Namespace}

theorem upsert_current (history : History) {request : Call × OffsetDateTime}
    (h : Namespace.of request.1 = some space) :
    (history.upsert encode sn request).current space = some (content encode request) ∧
      (history.upsert encode sn request).log =
        history.log ++ logged sn request.2 (history.current space) (content encode request) := by
  obtain ⟨call, now⟩ := request
  cases call with
  | component report =>
      simp only [Namespace.of, Option.some.injEq] at h
      subst h
      exact ⟨rfl, rfl⟩
  | device report =>
      simp only [Namespace.of, Option.some.injEq] at h
      subst h
      exact ⟨rfl, rfl⟩
  | associations deviceSn components => simp [Namespace.of] at h

-- The log of upserts, one after the other, from what is there before them.
def chain (encode : OffsetDateTime → Json) (sn : String) (before : Option Contents) :
    List (Call × OffsetDateTime) → List ChangeLogRow
  | [] => []
  | request :: requests =>
      logged sn request.2 before (content encode request) ++ chain encode sn
        (some (content encode request)) requests

theorem foldl_upsert {requests : List (Call × OffsetDateTime)}
    (h : ∀ request ∈ requests, Namespace.of request.1 = some space) (history : History) :
    (requests.foldl (History.upsert encode sn) history).current space =
        ((requests.map (content encode)).getLast?).or (history.current space) ∧
      (requests.foldl (History.upsert encode sn) history).log =
        history.log ++ chain encode sn (history.current space) requests := by
  induction requests generalizing history with
  | nil => simp [chain]
  | cons request requests ih =>
      obtain ⟨hcurrent, hlog⟩ := upsert_current history (h request (by simp))
      obtain ⟨ihcurrent, ihlog⟩ := ih (fun later hlater => h later (List.mem_cons_of_mem _ hlater))
        (history.upsert encode sn request)
      rw [hcurrent] at ihcurrent ihlog
      refine ⟨?_, ?_⟩
      · rw [List.foldl_cons, ihcurrent, List.map_cons, List.getLast?_cons]
        cases (requests.map (content encode)).getLast? <;> rfl
      · rw [List.foldl_cons, ihlog, hlog, chain, List.append_assoc]

theorem chain_rows (encode : OffsetDateTime → Json) (sn : String) (before : Contents)
    (requests : List (Call × OffsetDateTime)) :
    (chain encode sn (some before) requests).map (·.before) =
        (before.snapshot :: requests.map fun request =>
          (content encode request).snapshot).dropLast ∧
      (chain encode sn (some before) requests).map (·.after) =
        (requests.map fun request => (content encode request).snapshot) ∧
      (chain encode sn (some before) requests).map (·.createdAt) = requests.map (·.2) := by
  induction requests generalizing before with
  | nil => simp [chain]
  | cons request requests ih =>
      obtain ⟨hbefore, hafter, htime⟩ := ih (content encode request)
      simp [chain, logged, hbefore, hafter, htime]

theorem chain_linked (before : Contents) (requests : List (Call × OffsetDateTime)) :
    (chain encode sn (some before) requests).IsChain fun row next => row.after = next.before := by
  induction requests generalizing before with
  | nil => exact .nil
  | cons request requests ih =>
      cases requests with
      | nil => exact .singleton _
      | cons next requests => exact .cons_cons rfl (ih (content encode request))

end Chain

-- The committed upserts of a serial number, in the order in which they have held its lock.
def upserts (hash : String → Int) (sn : String)
    (db : Db Heap LockKey (Call × OffsetDateTime) Phase) :
    List (Call × OffsetDateTime) :=
  commits (concerns sn) db.txs (db.order (.sn (hash sn)))

section Histories

variable {hash : String → Int} {encode : OffsetDateTime → Json} {sn : String} {space : Namespace}
  {heap : Heap}

-- What a run makes of the history of a serial number.
theorem history_run (hash : String → Int) (encode : OffsetDateTime → Json) (sn : String)
    (moves : List (Move (Call × OffsetDateTime))) (heap : Heap) :
    let db := run (code hash encode) moves (Db.start heap)
    db.committed.history encode sn = (upserts hash sn db).foldl (History.upsert encode sn)
      (heap.history encode sn) :=
  (serial_run (history_guarded hash encode sn) moves heap).committed

theorem upserts_space {db : Db Heap LockKey (Call × OffsetDateTime) Phase}
    (h : ∀ tx t, db.txs tx = some t → concerns sn t.request = true → Namespace.of t.request.1 =
      some space)
    {request : Call × OffsetDateTime} (hmem : request ∈ upserts hash sn db) :
    Namespace.of request.1 = some space := by
  obtain ⟨tx, -, hrequest⟩ := List.mem_filterMap.mp hmem
  obtain ⟨t, ht, hcommitted⟩ := Option.bind_eq_some_iff.mp hrequest
  unfold committedRequest at hcommitted
  split_ifs at hcommitted with hconcerns
  rw [Option.some.injEq] at hcommitted
  exact hcommitted ▸ h tx t ht hconcerns.2

-- The log of a serial number that is new, as the upserts have made it.
theorem log_run (hcurrent : (heap.history encode sn).current space = none)
    (hlog : heap.tables.logOf sn = []) {moves : List (Move (Call × OffsetDateTime))}
    {db : Db Heap LockKey (Call × OffsetDateTime) Phase}
    (hdb : db = run (code hash encode) moves (Db.start heap))
    (hspace : ∀ tx t, db.txs tx = some t → concerns sn t.request = true → Namespace.of t.request.1 =
      some space) :
    (db.committed.history encode sn).current space =
      ((upserts hash sn db).map (content encode)).getLast? ∧
      db.committed.tables.logOf sn = chain encode sn none (upserts hash sn db) := by
  have hrun := history_run hash encode sn moves heap
  rw [← hdb] at hrun
  obtain ⟨hcurrent', hlog'⟩ :=
    foldl_upsert (fun _ hmem => upserts_space hspace hmem) (heap.history encode sn)
  rw [← hrun, hcurrent] at hcurrent' hlog'
  refine ⟨by simpa using hcurrent', ?_⟩
  have hfirst : (heap.history encode sn).log = [] := hlog
  rw [hfirst] at hlog'
  exact hlog'

end Histories

-- The audit trail of a serial number.
structure ChangeLogChain (hash : String → Int) (encode : OffsetDateTime → Json) (sn : String)
    (space : Namespace) (db : Db Heap LockKey (Call × OffsetDateTime) Phase) : Prop where
  count : (db.committed.tables.logOf sn).length = (upserts hash sn db).length - 1
  before : (db.committed.tables.logOf sn).map (·.before) =
    ((upserts hash sn db).map fun request => (content encode request).snapshot).dropLast
  after : (db.committed.tables.logOf sn).map (·.after) =
    ((upserts hash sn db).map fun request => (content encode request).snapshot).tail
  linked : (db.committed.tables.logOf sn).IsChain fun row next => row.after = next.before
  last : ∀ row, (db.committed.tables.logOf sn).getLast? = some row →
    ((db.committed.history encode sn).current space).map (·.snapshot) = some row.after
  current : (db.committed.history encode sn).current space =
    ((upserts hash sn db).map (content encode)).getLast?
  once : (db.order (.sn (hash sn))).Nodup
  complete : ∀ tx t, db.txs tx = some t → t.status = .committed → concerns sn t.request = true →
    tx ∈ db.order (.sn (hash sn))

theorem chain_none (encode : OffsetDateTime → Json) (sn : String)
    (requests : List (Call × OffsetDateTime)) :
    (chain encode sn none requests).map (·.before) =
        (requests.map fun request => (content encode request).snapshot).dropLast ∧
      (chain encode sn none requests).map (·.after) =
        (requests.map fun request => (content encode request).snapshot).tail ∧
      (chain encode sn none requests).map (·.createdAt) = (requests.map (·.2)).tail ∧
      (chain encode sn none requests).IsChain fun row next => row.after = next.before := by
  cases requests with
  | nil => simp [chain]
  | cons request requests =>
      have hrows := chain_rows encode sn (content encode request) requests
      exact ⟨hrows.1, hrows.2.1, hrows.2.2, chain_linked (content encode request) requests⟩

-- An instant of the first second after the epoch, as `time` serializes it without a format.
def encodeEarly (instant : OffsetDateTime) : Json :=
  .array ([1970, 1, 0, 0, 0, UInt64.ofNat instant.toNat, 0, 0, 0].map fun part =>
    .number (.posInt part))

-- The second report waits for the lock of the first, and overwrites it.
def cameraMoves : List (Move (Call × OffsetDateTime)) :=
  [.begin 0 (.component ⟨"cam-1", "camera", .null, .array []⟩, 1000),
   .begin 1 (.component ⟨"cam-1", "radar", .null, .array []⟩, 2000),
   .step 0, .step 1, .step 0, .step 0, .step 0, .step 1, .step 1, .step 1, .step 1, .step 1]

end RmqttThings.Factory
