import RmqttThings.Factory.ChangeLog

namespace RmqttThings.Factory

open Effects.Transactions
open Effects.RowLock (Move txs_update_cases)

-- The association rows of one device, by component.
structure DeviceRows where
  rows : String → Option AssociationRow
  inserted : String → Nat

namespace DeviceRows

variable (device : DeviceRows)

def delete (componentSn : String) : DeviceRows :=
  { device with rows := Function.update device.rows componentSn none }

def insert (now : OffsetDateTime) (item : ComponentAssociationInput) : DeviceRows where
  rows := Function.update device.rows item.componentSn (some ⟨item.componentType, now⟩)
  inserted := if (device.rows item.componentSn).isSome then device.inserted
    else Function.update device.inserted item.componentSn (device.inserted item.componentSn + 1)

-- The association set: the components with their types.
def types (componentSn : String) : Option (Option String) :=
  (device.rows componentSn).map (·.componentType)

end DeviceRows

-- The association set that a list asks for: the last entry of a component wins.
def listed (components : List ComponentAssociationInput) (componentSn : String) :
    Option (Option String) :=
  (lastEntry components componentSn).map (·.componentType)

theorem listed_eq_none {components : List ComponentAssociationInput} {componentSn : String} :
    listed components componentSn = none ↔ lastEntry components componentSn = none := by
  simp [listed]

def Heap.rowsOf (deviceSn : String) (heap : Heap) : DeviceRows where
  rows := fun componentSn => heap.tables.associations.lookup (deviceSn, componentSn)
  inserted := fun componentSn => heap.inserted (deviceSn, componentSn)

section Statements

variable (deviceSn : String) (heap : Heap)

theorem rowsOf_delete (componentSn : String) :
    (heap.update (·.deleteAssociation (deviceSn, componentSn))).rowsOf deviceSn =
      (heap.rowsOf deviceSn).delete componentSn := by
  simp only [Heap.rowsOf, Heap.update, Tables.deleteAssociation, DeviceRows.delete,
    DeviceRows.mk.injEq, and_true]
  funext other
  by_cases he : other = componentSn
  · subst he
    simp
  · have hne : (deviceSn, other) ≠ (deviceSn, componentSn) := by simpa using he
    rw [AList.lookup_erase_ne hne, Function.update_of_ne he]

theorem rowsOf_insert (now : OffsetDateTime) (item : ComponentAssociationInput) :
    (heap.insertAssociation now deviceSn item).rowsOf deviceSn = (heap.rowsOf deviceSn).insert now
      item := by
  simp only [Heap.rowsOf, Heap.insertAssociation, Tables.insertAssociation, DeviceRows.insert,
    DeviceRows.mk.injEq]
  constructor
  · funext other
    by_cases he : other = item.componentSn
    · subst he
      simp
    · have hne : (deviceSn, other) ≠ (deviceSn, item.componentSn) := by simpa using he
      rw [AList.lookup_insert_ne hne, Function.update_of_ne he]
  · by_cases hfound : (heap.tables.associations.lookup (deviceSn, item.componentSn)).isSome = true
    · simp only [hfound, if_true]
    · simp only [hfound]
      funext other
      by_cases he : other = item.componentSn
      · subst he
        simp
      · have hne : (deviceSn, other) ≠ (deviceSn, item.componentSn) := by simpa using he
        simp [Function.update_of_ne hne, Function.update_of_ne he]

variable {other : String} (h : other ≠ deviceSn)
include h

theorem rowsOf_delete_ne (componentSn : String) :
    (heap.update (·.deleteAssociation (other, componentSn))).rowsOf deviceSn =
      heap.rowsOf deviceSn := by
  have hne : ∀ component, (deviceSn, component) ≠ (other, componentSn) := by
    intro component he
    exact h (congrArg Prod.fst he).symm
  simp [Heap.rowsOf, Heap.update, Tables.deleteAssociation, AList.lookup_erase_ne (hne _)]

theorem rowsOf_insert_ne (now : OffsetDateTime) (item : ComponentAssociationInput) :
    (heap.insertAssociation now other item).rowsOf deviceSn = heap.rowsOf deviceSn := by
  have hne : ∀ component, (deviceSn, component) ≠ (other, item.componentSn) := by
    intro component he
    exact h (congrArg Prod.fst he).symm
  simp only [Heap.rowsOf, Heap.insertAssociation, Tables.insertAssociation, DeviceRows.mk.injEq]
  constructor
  · funext component
    exact AList.lookup_insert_ne (hne component)
  · split_ifs
    · rfl
    · funext component
      exact Function.update_of_ne (hne component) ..

end Statements

def replacesDevice (deviceSn : String) (request : Call × OffsetDateTime) : Bool :=
  match request.1 with
  | .associations other _ => other == deviceSn
  | _ => false

-- Everything but the replaces of the device leaves its rows alone.
theorem rowsOf_foreign {hash : String → Int} {encode : OffsetDateTime → Json} {deviceSn : String}
    {request : Call × OffsetDateTime} {phase phase' : Phase} {view : Heap} {locks : List LockKey}
    {change : Heap → Heap} (hforeign : replacesDevice deviceSn request = false)
    (h : (code hash encode).next request phase view = .statement locks change phase')
    (heap : Heap) :
    (change heap).rowsOf deviceSn = heap.rowsOf deviceSn := by
  obtain ⟨call, now⟩ := request
  cases call with
  | component report =>
      obtain ⟨-, -, rfl, -⟩ | ⟨-, -, rfl, -⟩ | ⟨before, -, -, rfl, -⟩ | ⟨before, after, -, -,
          rfl, -⟩ :=
        nextComponent_statement h
      · rfl
      · rfl
      · rfl
      · rfl
  | device report =>
      obtain ⟨-, -, rfl, -⟩ | ⟨-, -, rfl, -⟩ | ⟨before, -, -, rfl, -⟩ | ⟨before, after, -, -,
          rfl, -⟩ :=
        nextDevice_statement h
      · rfl
      · rfl
      · rfl
      · rfl
  | associations other components =>
      have hne : other ≠ deviceSn := by simpa [replacesDevice] using hforeign
      obtain ⟨-, rfl, -⟩ | ⟨-, rfl, -⟩ | ⟨row, rows, -, -, rfl, -⟩ | ⟨row, rows, -, -, rfl, -⟩ |
        ⟨item, items, -, rfl, -⟩ := nextAssociations_statement h
      · rfl
      · rfl
      · exact rowsOf_delete_ne deviceSn heap hne row.1
      · rfl
      · exact rowsOf_insert_ne deviceSn heap hne now item

section Progress

-- The changes add nothing that the list does not have.
def Keeps (components : List ComponentAssociationInput) (change : DeviceRows → DeviceRows) : Prop :=
  ∀ device componentSn, lastEntry components componentSn = none → device.rows componentSn = none →
    (change device).rows componentSn = none

-- How far a replace is: what it still has to delete, or to upsert.
inductive Progress (components : List ComponentAssociationInput) (committed : DeviceRows) :
    Phase → (DeviceRows → DeviceRows) → Prop where
  | begun : Progress components committed .begun id
  | deleting (rows : List (String × Nat)) (change : DeviceRows → DeviceRows) :
      Keeps components change → (∀ componentSn, ((change committed).rows componentSn).isSome →
        lastEntry components componentSn = none →
        (componentSn, (change committed).inserted componentSn) ∈ rows) →
      Progress components committed (.deleting rows) change
  | upserting (done items : List ComponentAssociationInput) (change : DeviceRows → DeviceRows) :
      components = done ++ items → Keeps components change →
      (∀ device componentSn, lastEntry items componentSn = none →
        (lastEntry components componentSn).isSome →
        (change device).types componentSn = listed components componentSn) →
      (∀ componentSn, lastEntry components componentSn = none →
        (change committed).rows componentSn = none) →
      Progress components committed (.upserting items) change

variable {components : List ComponentAssociationInput} {committed : DeviceRows}
  {phase phase' : Phase} {change : DeviceRows → DeviceRows} {deviceSn : String}
  {now : OffsetDateTime} {view : Heap}

-- The `DELETE` has found everything that the list does not have.
theorem progress_found (hview : view.rowsOf deviceSn = committed) :
    Progress components committed (.deleting (view.replacedRows deviceSn components)) id := by
  refine .deleting _ id (fun _ _ _ h => h) ?_
  intro componentSn hrow hlast
  subst hview
  refine List.mem_map.mpr ⟨(deviceSn, componentSn), ?_, rfl⟩
  exact (mem_replacedKeys view.tables deviceSn).mpr ⟨hrow, rfl, hlast⟩

theorem progress_delete {row : String × Nat} {rows : List (String × Nat)}
    (hkeeps : Keeps components change)
    (hleft : ∀ componentSn, ((change committed).rows componentSn).isSome →
      lastEntry components componentSn = none →
      (componentSn, (change committed).inserted componentSn) ∈ row :: rows) :
    Progress components committed (.deleting rows)
      (fun device => (change device).delete row.1) := by
  refine .deleting rows _ ?_ ?_
  · intro device componentSn hlast hrow
    by_cases he : componentSn = row.1
    · simp [DeviceRows.delete, he]
    · simp only [DeviceRows.delete, Function.update_of_ne he]
      exact hkeeps device componentSn hlast hrow
  · intro componentSn hrow hlast
    by_cases he : componentSn = row.1
    · simp [DeviceRows.delete, he] at hrow
    · simp only [DeviceRows.delete, Function.update_of_ne he] at hrow ⊢
      rcases List.mem_cons.mp (hleft componentSn hrow hlast) with hfirst | hrest
      · exact absurd (congrArg Prod.fst hfirst) he
      · exact hrest

-- A row that is gone is not what the `DELETE` has to find.
theorem progress_skip {row : String × Nat} {rows : List (String × Nat)}
    (hkeeps : Keeps components change)
    (hleft : ∀ componentSn, ((change committed).rows componentSn).isSome →
      lastEntry components componentSn = none →
      (componentSn, (change committed).inserted componentSn) ∈ row :: rows)
    (hview : view.rowsOf deviceSn = change committed) (hgone : ¬ view.HasRow deviceSn row) :
    Progress components committed (.deleting rows) change := by
  refine .deleting rows change hkeeps ?_
  intro componentSn hrow hlast
  rcases List.mem_cons.mp (hleft componentSn hrow hlast) with hfirst | hrest
  · refine absurd ?_ hgone
    rw [← hview] at hrow hfirst
    rw [← hfirst]
    exact ⟨hrow, rfl⟩
  · exact hrest

theorem progress_upsert {done items : List ComponentAssociationInput}
    {item : ComponentAssociationInput} (hlist : components = done ++ item :: items)
    (hkeeps : Keeps components change)
    (hdone : ∀ device componentSn, lastEntry (item :: items) componentSn = none →
      (lastEntry components componentSn).isSome → (change device).types componentSn =
        listed components componentSn)
    (hclear : ∀ componentSn, lastEntry components componentSn = none →
      (change committed).rows componentSn = none) :
    Progress components committed (.upserting items)
      (fun device => (change device).insert now item) := by
  -- the component of the item is in the list
  have hmember : ∀ componentSn, lastEntry components componentSn = none →
      componentSn ≠ item.componentSn := by
    rintro componentSn hlast rfl
    simp [hlist, lastEntry_eq_none] at hlast
  refine .upserting (done ++ [item]) items _ (by simp [hlist]) ?_ ?_ ?_
  · intro device componentSn hlast hrow
    simp only [DeviceRows.insert, Function.update_of_ne (hmember componentSn hlast)]
    exact hkeeps device componentSn hlast hrow
  · intro device componentSn hitems hlast
    by_cases he : componentSn = item.componentSn
    · subst he
      simp [DeviceRows.types, DeviceRows.insert, listed, hlist, lastEntry_append, lastEntry_cons,
        hitems]
    · have hcons : lastEntry (item :: items) componentSn = none := by
        simp [lastEntry_cons, hitems, Ne.symm he]
      simp only [DeviceRows.types, DeviceRows.insert, Function.update_of_ne he]
      exact hdone device componentSn hcons hlast
  · intro componentSn hlast
    simp only [DeviceRows.insert, Function.update_of_ne (hmember componentSn hlast)]
    exact hclear componentSn hlast

theorem Progress.statement (h : Progress components committed phase change)
    (hview : view.rowsOf deviceSn = change committed)
    {locks : List LockKey} {write : Heap → Heap}
    (hnext : nextAssociations now deviceSn components phase view = .statement locks write phase') :
    ∃ change', (∀ heap device, heap.rowsOf deviceSn = change device → (write heap).rowsOf deviceSn =
      change' device) ∧ Progress components committed phase' change' := by
  obtain ⟨rfl, rfl, rfl⟩ | ⟨rfl, rfl, rfl⟩ | ⟨row, rows, rfl, hrow, rfl, rfl⟩ | ⟨row, rows, rfl,
      hrow, rfl, rfl⟩ |
    ⟨item, items, rfl, rfl, rfl⟩ := nextAssociations_statement hnext
  · cases h with
    | begun => exact ⟨id, fun heap device hheap => hheap, progress_found hview⟩
  · cases h with
    | deleting _ _ hkeeps hleft =>
        refine ⟨change, fun heap device hheap => hheap,
          .upserting [] components change rfl hkeeps ?_ ?_⟩
        · intro device componentSn hnone hsome
          simp [hnone] at hsome
        · intro componentSn hlast
          rw [Option.eq_none_iff_forall_ne_some]
          intro row hrow
          exact absurd (hleft componentSn (by simp [hrow]) hlast) (by simp)
  · cases h with
    | deleting _ _ hkeeps hleft =>
        refine ⟨_, ?_, progress_delete hkeeps hleft⟩
        intro heap device hheap
        rw [rowsOf_delete, hheap]
  · cases h with
    | deleting _ _ hkeeps hleft =>
        exact ⟨change, fun heap device hheap => hheap, progress_skip hkeeps hleft hview hrow⟩
  · cases h with
    | upserting done _ _ hlist hkeeps hdone hclear =>
        refine ⟨fun device => (change device).insert now item, ?_,
          progress_upsert hlist hkeeps hdone hclear⟩
        intro heap device hheap
        rw [rowsOf_insert, hheap]

theorem Progress.commit (h : Progress components committed phase change)
    (hnext : nextAssociations now deviceSn components phase view = .commit) :
    (change committed).types = listed components := by
  cases h with
  | begun => simp [nextAssociations] at hnext
  | deleting rows =>
      cases rows with
      | nil => simp [nextAssociations] at hnext
      | cons row rows =>
          simp only [nextAssociations] at hnext
          split_ifs at hnext
  | upserting done items _ hlist hkeeps hdone hclear =>
      cases items with
      | cons item items => simp [nextAssociations] at hnext
      | nil =>
          funext componentSn
          cases hlast : lastEntry components componentSn with
          | none => simp [DeviceRows.types, listed, hlast, hclear componentSn hlast]
          | some item => exact hdone committed componentSn (by simp [lastEntry]) (by simp [hlast])

-- Another replace has left the same list: there is nothing left to delete.
theorem Progress.transfer (h : Progress components committed phase change) {committed' : DeviceRows}
    (hsame : phase ≠ .begun → committed'.types = listed components) :
    Progress components committed' phase change := by
  have hclear : phase ≠ .begun → ∀ componentSn, lastEntry components componentSn = none →
      committed'.rows componentSn = none := by
    intro hphase componentSn hlast
    have htypes := congrFun (hsame hphase) componentSn
    rw [listed_eq_none.mpr hlast] at htypes
    exact Option.map_eq_none_iff.mp htypes
  cases h with
  | begun => exact .begun
  | deleting rows _ hkeeps hleft =>
      refine .deleting rows change hkeeps ?_
      intro componentSn hrow hlast
      simp [hkeeps committed' componentSn hlast (hclear (by simp) componentSn hlast)] at hrow
  | upserting done items _ hlist hkeeps hdone _ =>
      exact .upserting done items change hlist hkeeps hdone fun componentSn hlast =>
        hkeeps committed' componentSn hlast (hclear (by simp) componentSn hlast)

end Progress

section Runs

variable (deviceSn : String) (db : Db Heap LockKey (Call × OffsetDateTime) Phase)

-- A replace of the device is between the start of its `DELETE` and its end.
def OpenReplace (tx : Nat) (components : List ComponentAssociationInput) : Prop :=
  ∃ t, db.txs tx = some t ∧ t.status = .active ∧ t.request.1 = .associations deviceSn components ∧
    t.phase ≠ .begun

def CommittedReplace (components : List ComponentAssociationInput) : Prop :=
  ∃ tx t, db.txs tx = some t ∧ t.status = .committed ∧
    t.request.1 = .associations deviceSn components

-- The association set of the device is the list of a committed request, if there is one.
def Replaced (first : DeviceRows) : Prop :=
  ((∀ components, ¬ CommittedReplace deviceSn db components) ∧ db.committed.rowsOf deviceSn =
    first) ∨ ∃ components, CommittedReplace deviceSn db components ∧
      (db.committed.rowsOf deviceSn).types = listed components

-- A replace does not start its `DELETE` while a replace of the device with another list is open.
def NoOverlap (move : Move (Call × OffsetDateTime)) : Prop :=
  ∀ tx t components, move = .step tx → db.txs tx = some t → t.status = .active →
    t.request.1 = .associations deviceSn components → t.phase = .begun →
    ∀ other components', OpenReplace deviceSn db other components' →
      listed components' = listed components

structure Replacing (first : DeviceRows) : Prop where
  foreign : ∀ tx t, db.txs tx = some t → t.status = .active →
    replacesDevice deviceSn t.request = false →
    ∀ heap, (t.change heap).rowsOf deviceSn = heap.rowsOf deviceSn
  own : ∀ tx t components, db.txs tx = some t → t.status = .active →
    t.request.1 = .associations deviceSn components →
    ∃ change, (∀ heap, (t.change heap).rowsOf deviceSn = change (heap.rowsOf deviceSn)) ∧
      Progress components (db.committed.rowsOf deviceSn) t.phase change
  same : ∀ tx components other components', OpenReplace deviceSn db tx components →
    OpenReplace deviceSn db other components' → listed components = listed components'
  replaced : Replaced deviceSn db first

variable {deviceSn db} {db' : Db Heap LockKey (Call × OffsetDateTime) Phase} {first : DeviceRows}
  {tx : Nat} {t t' : Tx Heap (Call × OffsetDateTime) Phase} {hash : String → Int}
  {encode : OffsetDateTime → Json}

theorem replacesDevice_associations {request : Call × OffsetDateTime}
    {components : List ComponentAssociationInput}
    (h : request.1 = .associations deviceSn components) :
    replacesDevice deviceSn request = true := by
  simp [replacesDevice, h]

-- The committed replaces stay what they are.
theorem CommittedReplace.put {components : List ComponentAssociationInput}
    (hold : ∀ t, db.txs tx = some t → t.status = .active)
    (htxs : db'.txs = Function.update db.txs tx (some t'))
    (h : CommittedReplace deviceSn db components) : CommittedReplace deviceSn db' components := by
  obtain ⟨other, found, hfound, hstatus, hrequest⟩ := h
  have hne : other ≠ tx := by
    rintro rfl
    simp [hold found hfound] at hstatus
  exact ⟨other, found, by rw [htxs, Function.update_of_ne hne, hfound], hstatus, hrequest⟩

theorem committedReplace_of_put {components : List ComponentAssociationInput}
    (htxs : db'.txs = Function.update db.txs tx (some t'))
    (h : CommittedReplace deviceSn db' components) :
    (t'.status = .committed ∧ t'.request.1 = .associations deviceSn components) ∨
      CommittedReplace deviceSn db components := by
  obtain ⟨other, found, hfound, hstatus, hrequest⟩ := h
  rcases txs_update_cases htxs hfound with ⟨rfl, rfl⟩ | ⟨-, hfound⟩
  · exact .inl ⟨hstatus, hrequest⟩
  · exact .inr ⟨other, found, hfound, hstatus, hrequest⟩

theorem openReplace_of_put {other : Nat} {components : List ComponentAssociationInput}
    (htxs : db'.txs = Function.update db.txs tx (some t'))
    (h : OpenReplace deviceSn db' other components) :
    (other = tx ∧ t'.status = .active ∧ t'.request.1 = .associations deviceSn components ∧
      t'.phase ≠ .begun) ∨ (other ≠ tx ∧ OpenReplace deviceSn db other components) := by
  obtain ⟨found, hfound, hopen⟩ := h
  rcases txs_update_cases htxs hfound with ⟨rfl, rfl⟩ | ⟨he, hfound⟩
  · exact .inl ⟨rfl, hopen⟩
  · exact .inr ⟨he, found, hfound, hopen⟩

-- A move that commits no replace of the device.
theorem Replaced.put (h : Replaced deviceSn db first) (hold : ∀ t, db.txs tx = some t →
    t.status = .active)
    (htxs : db'.txs = Function.update db.txs tx (some t'))
    (hnew : t'.status = .committed → replacesDevice deviceSn t'.request = false)
    (hrows : db'.committed.rowsOf deviceSn = db.committed.rowsOf deviceSn) :
    Replaced deviceSn db' first := by
  rcases h with ⟨hnone, hfirst⟩ | ⟨components, hcommitted, htypes⟩
  · refine .inl ⟨?_, hrows.trans hfirst⟩
    intro components hcommitted
    rcases committedReplace_of_put htxs hcommitted with ⟨hstatus, hrequest⟩ | hcommitted
    · have htrue := replacesDevice_associations hrequest
      simp [hnew hstatus] at htrue
    · exact hnone components hcommitted
  · exact .inr ⟨components, hcommitted.put hold htxs, hrows ▸ htypes⟩

-- The other transactions, when the committed rows of the device are as before.
theorem Replacing.others (h : Replacing deviceSn db first)
    (htxs : db'.txs = Function.update db.txs tx (some t'))
    (hrows : db'.committed.rowsOf deviceSn = db.committed.rowsOf deviceSn)
    (hforeign : t'.status = .active → replacesDevice deviceSn t'.request = false →
      ∀ heap, (t'.change heap).rowsOf deviceSn = heap.rowsOf deviceSn)
    (hown : ∀ components, t'.status = .active → t'.request.1 = .associations deviceSn components →
      ∃ change, (∀ heap, (t'.change heap).rowsOf deviceSn = change (heap.rowsOf deviceSn)) ∧
        Progress components (db.committed.rowsOf deviceSn) t'.phase change)
    (hsame : ∀ components, t'.status = .active → t'.request.1 = .associations deviceSn components →
      t'.phase ≠ .begun →
      ∀ other components', other ≠ tx → OpenReplace deviceSn db other components' →
        listed components' = listed components)
    (hreplaced : Replaced deviceSn db' first) : Replacing deviceSn db' first := by
  refine ⟨?_, ?_, ?_, hreplaced⟩
  · intro other found hfound hstatus hrequest
    rcases txs_update_cases htxs hfound with ⟨rfl, rfl⟩ | ⟨-, hfound⟩
    · exact hforeign hstatus hrequest
    · exact h.foreign other found hfound hstatus hrequest
  · intro other found components hfound hstatus hrequest
    rw [hrows]
    rcases txs_update_cases htxs hfound with ⟨rfl, rfl⟩ | ⟨-, hfound⟩
    · exact hown components hstatus hrequest
    · exact h.own other found components hfound hstatus hrequest
  · intro other components other' components' hopen hopen'
    rcases openReplace_of_put htxs hopen with ⟨rfl, hstatus, hrequest, hphase⟩ | ⟨he, hold⟩
    · rcases openReplace_of_put htxs hopen' with ⟨-, -, hrequest', -⟩ | ⟨he', hold'⟩
      · rw [hrequest, Call.associations.injEq] at hrequest'
        rw [hrequest'.2]
      · exact (hsame components hstatus hrequest hphase other' components' he' hold').symm
    · rcases openReplace_of_put htxs hopen' with ⟨rfl, hstatus', hrequest', hphase'⟩ | ⟨-, hold'⟩
      · exact hsame components' hstatus' hrequest' hphase' other components he hold
      · exact h.same other components other' components' hold hold'

theorem next_associations {request : Call × OffsetDateTime}
    {components : List ComponentAssociationInput} {phase : Phase}
    {view : Heap} (h : request.1 = .associations deviceSn components) :
    (code hash encode).next request phase view = nextAssociations request.2 deviceSn components
      phase view := by
  simp [code, h]

theorem Replacing.statement (h : Replacing deviceSn db first) (htx : db.txs tx = some t)
    (hactive : t.status = .active) (hallowed : NoOverlap deviceSn db (.step tx))
    {locks : List LockKey} {change : Heap → Heap} {phase : Phase}
    (hnext : (code hash encode).next t.request t.phase (db.view t) =
      .statement locks change phase) :
    Replacing deviceSn (db.statement tx t locks change phase) first := by
  refine h.others (Db.statement_txs ..) rfl ?_ ?_ ?_ ?_
  · intro _ hforeign heap
    exact (rowsOf_foreign hforeign hnext _).trans (h.foreign tx t htx hactive hforeign heap)
  · intro components _ hrequest
    obtain ⟨before, hbefore, hprogress⟩ := h.own tx t components htx hactive hrequest
    rw [next_associations hrequest] at hnext
    obtain ⟨after, hafter, hprogress'⟩ := hprogress.statement (hbefore db.committed) hnext
    exact ⟨after, fun heap => hafter (t.change heap) (heap.rowsOf deviceSn) (hbefore heap),
      hprogress'⟩
  · intro components _ hrequest _ other components' _ hopen
    by_cases hphase : t.phase = .begun
    · exact hallowed tx t components rfl htx hactive hrequest hphase other components' hopen
    · exact h.same other components' tx components hopen ⟨t, htx, hactive, hrequest, hphase⟩
  · refine h.replaced.put (by simp [htx, hactive]) (Db.statement_txs ..) ?_ rfl
    simp [hactive]

theorem Replacing.commit (h : Replacing deviceSn db first) (htx : db.txs tx = some t)
    (hactive : t.status = .active)
    (hnext : (code hash encode).next t.request t.phase (db.view t) = .commit) :
    Replacing deviceSn (db.commit tx t) first := by
  cases hrequest : replacesDevice deviceSn t.request with
  | false =>
      have hrows : (db.commit tx t).committed.rowsOf deviceSn = db.committed.rowsOf deviceSn :=
        h.foreign tx t htx hactive hrequest db.committed
      refine h.others (Db.commit_txs ..) hrows (by simp) (by simp) (by simp) ?_
      exact h.replaced.put (by simp [htx, hactive]) (Db.commit_txs ..) (fun _ => hrequest) hrows
  | true =>
      obtain ⟨components, hcall⟩ :
          ∃ components, t.request.1 = .associations deviceSn components := by
        unfold replacesDevice at hrequest
        split at hrequest
        · next other components hcall =>
          rw [beq_iff_eq] at hrequest
          exact ⟨components, hrequest ▸ hcall⟩
        · simp at hrequest
      obtain ⟨change, hchange, hprogress⟩ := h.own tx t components htx hactive hcall
      rw [next_associations hcall] at hnext
      have hphase : t.phase ≠ .begun := by
        intro hphase
        simp [hphase, nextAssociations] at hnext
      have htypes : ((db.commit tx t).committed.rowsOf deviceSn).types = listed components := by
        rw [Db.commit_committed, Db.view, hchange]
        exact hprogress.commit hnext
      refine ⟨?_, ?_, ?_, .inr ⟨components, ⟨tx, _, Function.update_self .., rfl, hcall⟩, htypes⟩⟩
      · intro other found hfound hstatus hforeign
        rcases txs_update_cases (Db.commit_txs ..) hfound with ⟨rfl, rfl⟩ | ⟨-, hfound⟩
        · simp at hstatus
        · exact h.foreign other found hfound hstatus hforeign
      · intro other found components' hfound hstatus hcall'
        rcases txs_update_cases (Db.commit_txs ..) hfound with ⟨rfl, rfl⟩ | ⟨-, hfound⟩
        · simp at hstatus
        · obtain ⟨change', hchange', hprogress'⟩ :=
            h.own other found components' hfound hstatus hcall'
          refine ⟨change', hchange', hprogress'.transfer fun hphase' => ?_⟩
          rw [htypes]
          exact h.same tx components other components' ⟨t, htx, hactive, hcall, hphase⟩
            ⟨found, hfound, hstatus, hcall', hphase'⟩
      · intro other components' other' components'' hopen hopen'
        rcases openReplace_of_put (Db.commit_txs ..) hopen with ⟨-, hstatus, -⟩ | ⟨-, hopen⟩
        · simp at hstatus
        · rcases openReplace_of_put (Db.commit_txs ..) hopen' with ⟨-, hstatus, -⟩ | ⟨-, hopen'⟩
          · simp at hstatus
          · exact h.same other components' other' components'' hopen hopen'

theorem Replacing.moved (h : Replacing deviceSn db first) {move : Move (Call × OffsetDateTime)}
    (hallowed : NoOverlap deviceSn db move) (hmoved : Moved (code hash encode) db move db') :
    Replacing deviceSn db' first := by
  cases hmoved with
  | same => exact h
  | begun tx request htx =>
      refine h.others (Db.put_txs ..) rfl (fun _ _ _ => rfl) ?_ (fun _ _ _ hphase =>
        absurd rfl hphase) ?_
      · exact fun components _ _ => ⟨id, fun _ => rfl, .begun⟩
      · exact h.replaced.put (by simp [htx]) (Db.put_txs ..) (by simp) rfl
  | statement tx t locks change phase htx hactive hnext =>
      exact h.statement htx hactive hallowed hnext
  | committed tx t htx hactive hnext => exact h.commit htx hactive hnext
  | rolledBack _ t htx hactive =>
      refine h.others (Db.rollback_txs ..) rfl (by simp) (by simp) (by simp) ?_
      exact h.replaced.put (by simp [htx, hactive]) (Db.rollback_txs ..) (by simp) rfl

theorem replacing_start (heap : Heap) :
    Replacing deviceSn (Db.start heap) (heap.rowsOf deviceSn) where
  foreign := by simp [Db.start]
  own := by simp [Db.start]
  same := by simp [Db.start, OpenReplace]
  replaced := .inl ⟨by simp [Db.start, CommittedReplace], rfl⟩

-- A device that no replace is about.
structure Untouched (deviceSn : String) (first : DeviceRows)
    (db : Db Heap LockKey (Call × OffsetDateTime) Phase) :
    Prop where
  rows : db.committed.rowsOf deviceSn = first
  changes : ∀ tx t, db.txs tx = some t → replacesDevice deviceSn t.request = false ∧
    ∀ heap, (t.change heap).rowsOf deviceSn = heap.rowsOf deviceSn

theorem Untouched.put (h : Untouched deviceSn first db)
    (htxs : db'.txs = Function.update db.txs tx (some t'))
    (hrows : db'.committed.rowsOf deviceSn = db.committed.rowsOf deviceSn)
    (hnew : replacesDevice deviceSn t'.request = false ∧
      ∀ heap, (t'.change heap).rowsOf deviceSn = heap.rowsOf deviceSn) :
        Untouched deviceSn first db' := by
  refine ⟨hrows.trans h.rows, ?_⟩
  intro other found hfound
  rcases txs_update_cases htxs hfound with ⟨rfl, rfl⟩ | ⟨-, hfound⟩
  · exact hnew
  · exact h.changes other found hfound

theorem Untouched.moved (h : Untouched deviceSn first db) {move : Move (Call × OffsetDateTime)}
    (hmove : ∀ tx request, move = .begin tx request → replacesDevice deviceSn request = false)
    (hmoved : Moved (code hash encode) db move db') : Untouched deviceSn first db' := by
  cases hmoved with
  | same => exact h
  | begun tx request => exact h.put (Db.put_txs ..) rfl ⟨hmove tx request rfl, fun _ => rfl⟩
  | statement tx t locks change phase htx _ hnext =>
      obtain ⟨hforeign, hchange⟩ := h.changes tx t htx
      refine h.put (Db.statement_txs ..) rfl ⟨hforeign, fun heap => ?_⟩
      exact (rowsOf_foreign hforeign hnext _).trans (hchange heap)
  | committed tx t htx =>
      obtain ⟨hforeign, hchange⟩ := h.changes tx t htx
      exact h.put (Db.commit_txs ..) (hchange db.committed) ⟨hforeign, hchange⟩
  | rolledBack _ t htx => exact h.put (Db.rollback_txs ..) rfl (h.changes _ t htx)

end Runs

theorem replace_is_replace (hash : String → Int) (encode : OffsetDateTime → Json) (heap : Heap)
    (deviceSn : String) (moves : List (Move (Call × OffsetDateTime)))
    (h : Along (code hash encode) (NoOverlap deviceSn) moves (Db.start heap)) :
    Replaced deviceSn (run (code hash encode) moves (Db.start heap)) (heap.rowsOf deviceSn) ∧
      ∀ other, (∀ tx request, .begin tx request ∈ moves → replacesDevice other request = false) →
        (run (code hash encode) moves (Db.start heap)).committed.rowsOf other =
          heap.rowsOf other := by
  constructor
  · have hreplacing := run_induction_along (replacing_start heap)
      (fun db move db' hdb hallowed hmoved => Replacing.moved hdb hallowed hmoved) h
    exact hreplacing.replaced
  · intro other hother
    have hstart : Untouched other (heap.rowsOf other) (Db.start heap) := ⟨rfl, by simp [Db.start]⟩
    have halong : Along (code hash encode)
        (fun _ move => ∀ tx request, move = .begin tx request → replacesDevice other request =
          false) moves
        (Db.start heap) := by
      apply along_of_forall
      intro db move hmem tx request he
      exact hother tx request (he ▸ hmem)
    have huntouched := run_induction_along hstart
      (fun db move db' hdb hallowed hmoved => Untouched.moved hdb hallowed hmoved) halong
    exact huntouched.rows

-- A replace whose list names one component twice.
def gatewayMoves : List (Move (Call × OffsetDateTime)) :=
  [.begin 0 (.associations "gateway" [⟨"cam-1", none⟩, ⟨"cam-1", some "radar"⟩], 1000),
   .step 0, .step 0, .step 0, .step 0, .step 0]

theorem noOverlap_of_phase {deviceSn : String} {db : Db Heap LockKey (Call × OffsetDateTime) Phase}
    {tx : Nat} {t : Tx Heap (Call × OffsetDateTime) Phase} (htx : db.txs tx = some t)
    (hphase : t.phase ≠ .begun) :
    NoOverlap deviceSn db (.step tx) := by
  intro other found components hmove hfound _ _ hbegun
  rw [Move.step.injEq] at hmove
  rw [← hmove, htx, Option.some.injEq] at hfound
  exact absurd (hfound ▸ hbegun) hphase

theorem gateway_alone :
    Along (code (fun _ => 0) encodeEarly) (NoOverlap "gateway") gatewayMoves
      (Db.start Heap.empty) := by
  refine ⟨?_, ?_, noOverlap_of_phase rfl ?_, noOverlap_of_phase rfl ?_, noOverlap_of_phase rfl ?_,
    noOverlap_of_phase rfl ?_, trivial⟩
  · intro tx t components hmove
    cases hmove
  · rintro tx t components hmove ht - - hphase other components' ⟨t', ht', -, -, hopen⟩
    by_cases he : other = 0
    · subst he
      cases ht'
      exact absurd rfl hopen
    · cases (Function.update_of_ne he _ _).symm.trans ht'
  · exact Phase.noConfusion
  · exact Phase.noConfusion
  · exact Phase.noConfusion
  · exact Phase.noConfusion

theorem gateway_replaced :
    Replaced "gateway" (run (code (fun _ => 0) encodeEarly) gatewayMoves (Db.start Heap.empty))
        (Heap.empty.rowsOf "gateway") ∧
      ∀ other, (∀ tx request, .begin tx request ∈ gatewayMoves → replacesDevice other request =
        false) →
        (run (code (fun _ => 0) encodeEarly) gatewayMoves (Db.start Heap.empty)).committed.rowsOf
          other =
          Heap.empty.rowsOf other :=
  replace_is_replace _ encodeEarly Heap.empty "gateway" gatewayMoves gateway_alone

-- Both have started their `DELETE` on the empty set before the first commit.
def overlappingMoves : List (Move (Call × OffsetDateTime)) :=
  [.begin 0 (.associations "gateway" [⟨"cam-1", none⟩], 1000),
   .begin 1 (.associations "gateway" [⟨"cam-2", none⟩], 2000),
   .step 0, .step 1, .step 0, .step 1, .step 0, .step 1, .step 0, .step 1]

-- Both have committed, and the device has the components of both lists.
theorem overlapping_lists_mixed :
    ¬ Replaced "gateway" (run (code (fun _ => 0) encodeEarly) overlappingMoves
      (Db.start Heap.empty)) (Heap.empty.rowsOf "gateway") := by
  have hfirst : ((run (code (fun _ => 0) encodeEarly) overlappingMoves
      (Db.start Heap.empty)).committed.rowsOf "gateway").types "cam-1" = some none := rfl
  have hsecond : ((run (code (fun _ => 0) encodeEarly) overlappingMoves
      (Db.start Heap.empty)).committed.rowsOf "gateway").types "cam-2" = some none := rfl
  have hbegun : ∀ tx request, .begin tx request ∈ overlappingMoves →
      request.1 = .associations "gateway" [⟨"cam-1", none⟩] ∨
        request.1 = .associations "gateway" [⟨"cam-2", none⟩] := by
    intro tx request hmem
    simp only [overlappingMoves, List.mem_cons, Move.begin.injEq, reduceCtorEq, List.not_mem_nil,
      or_false] at hmem
    obtain ⟨-, rfl⟩ | ⟨-, rfl⟩ := hmem
    · exact .inl rfl
    · exact .inr rfl
  have hlists : ∀ tx t,
      (run (code (fun _ => 0) encodeEarly) overlappingMoves (Db.start Heap.empty)).txs tx = some t →
      t.request.1 = .associations "gateway" [⟨"cam-1", none⟩] ∨
        t.request.1 = .associations "gateway" [⟨"cam-2", none⟩] :=
    request_run (by simp [Db.start]) hbegun
  rintro (⟨-, hempty⟩ | ⟨components, ⟨tx, t, htx, -, hrequest⟩, htypes⟩)
  · rw [hempty] at hfirst
    cases hfirst
  · rw [htypes] at hfirst hsecond
    rcases hlists tx t htx with hlist | hlist
    · rw [hlist, Call.associations.injEq] at hrequest
      rw [← hrequest.2] at hsecond
      cases hsecond
    · rw [hlist, Call.associations.injEq] at hrequest
      rw [← hrequest.2] at hfirst
      cases hfirst

end RmqttThings.Factory
