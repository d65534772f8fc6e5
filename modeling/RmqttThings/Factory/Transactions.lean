import RmqttThings.Factory.Views
import RmqttThings.Effects.Transactions

namespace RmqttThings.Factory

open Effects.Transactions

-- The tables with, as a ghost, how often a row has been inserted under a key of the
-- associations: a row that is deleted and inserted again is another row.
structure Heap where
  tables : Tables
  inserted : String × String → Nat

inductive LockKey where
  | sn (hash : Int)
  | component (componentSn : String)
  | device (deviceSn : String)
  | association (key : String × String)
deriving DecidableEq

-- What a transaction has read, or what is left for it to do.
inductive Phase where
  | begun
  | locked
  | readComponent (before : Option ComponentRow)
  | readDevice (before : Option DeviceRow)
  | overwritten (before after : Json)
  | deleting (rows : List (String × Nat))
  | upserting (items : List ComponentAssociationInput)
  | written

namespace Heap

def empty : Heap := ⟨Tables.empty, fun _ => 0⟩

def update (change : Tables → Tables) (heap : Heap) : Heap :=
  { heap with tables := change heap.tables }

def insertAssociation (now : OffsetDateTime) (deviceSn : String) (item : ComponentAssociationInput)
    (heap : Heap) :
    Heap :=
  let key := (deviceSn, item.componentSn)
  { tables := heap.tables.insertAssociation now deviceSn item
    inserted := if (heap.tables.associations.lookup key).isSome then heap.inserted
      else Function.update heap.inserted key (heap.inserted key + 1) }

-- The rows that the `DELETE` of a full replace finds when it starts: their components, and
-- how often a row has been inserted for them.
def replacedRows (deviceSn : String) (components : List ComponentAssociationInput) (heap : Heap) :
    List (String × Nat) :=
  (heap.tables.replacedKeys deviceSn components).map fun key => (key.2, heap.inserted key)

-- The row is still there, maybe in a newer version.
def HasRow (deviceSn : String) (row : String × Nat) (heap : Heap) : Prop :=
  (heap.tables.associations.lookup (deviceSn, row.1)).isSome ∧
    heap.inserted (deviceSn, row.1) = row.2

instance (deviceSn : String) (row : String × Nat) (heap : Heap) :
    Decidable (HasRow deviceSn row heap) :=
  inferInstanceAs (Decidable (_ ∧ _))

end Heap

section Code

-- `hash` is `hashtextextended`, of which nothing is asked: serial numbers may share a lock.
variable (hash : String → Int) (encode : OffsetDateTime → Json) (now : OffsetDateTime)

def nextComponent (report : ComponentReport) (phase : Phase) (view : Heap) :
    Action Heap LockKey Phase :=
  let sn := report.componentSn
  let write := Heap.update (·.insertComponent now report)
  match phase with
  | .begun => .statement [.sn (hash sn)] id .locked
  | .locked => .statement [] id (.readComponent (view.tables.components sn))
  | .readComponent before =>
      match before, (write view).tables.components sn with
      | some before, some after =>
          .statement [.component sn] write (.overwritten (before.snapshot encode)
            (after.snapshot encode))
      | _, _ => .statement [.component sn] write .written
  | .overwritten before after =>
      .statement [] (Heap.update (·.appendChangeLog now sn before after)) .written
  | .written => .commit
  | _ => .rollback

def nextDevice (report : DeviceReport) (phase : Phase) (view : Heap) : Action Heap LockKey Phase :=
  let sn := report.deviceSn
  let write := Heap.update (·.insertDevice now report)
  match phase with
  | .begun => .statement [.sn (hash sn)] id .locked
  | .locked => .statement [] id (.readDevice (view.tables.devices sn))
  | .readDevice before =>
      match before, (write view).tables.devices sn with
      | some before, some after =>
          .statement [.device sn] write (.overwritten (before.snapshot encode)
            (after.snapshot encode))
      | _, _ => .statement [.device sn] write .written
  | .overwritten before after =>
      .statement [] (Heap.update (·.appendChangeLog now sn before after)) .written
  | .written => .commit
  | _ => .rollback

-- No lock before the `DELETE`. It waits for the lock of each row that it has found, and leaves
-- out a row that is gone by then.
def nextAssociations (deviceSn : String) (components : List ComponentAssociationInput)
    (phase : Phase) (view : Heap) :
    Action Heap LockKey Phase :=
  match phase with
  | .begun => .statement [] id (.deleting (view.replacedRows deviceSn components))
  | .deleting [] => .statement [] id (.upserting components)
  | .deleting (row :: rows) =>
      if view.HasRow deviceSn row then
        .statement [.association (deviceSn, row.1)]
          (Heap.update (·.deleteAssociation (deviceSn, row.1))) (.deleting rows)
      else .statement [] id (.deleting rows)
  | .upserting [] => .commit
  | .upserting (item :: items) =>
      .statement [.association (deviceSn, item.componentSn)]
        (Heap.insertAssociation now deviceSn item) (.upserting items)
  | _ => .rollback

-- Each request has the time at which its transaction starts.
def code : Code Heap LockKey (Call × OffsetDateTime) Phase where
  first := fun _ => .begun
  next := fun request phase view =>
    match request.1 with
    | .component report => nextComponent hash encode request.2 report phase view
    | .device report => nextDevice hash encode request.2 report phase view
    | .associations deviceSn components => nextAssociations request.2 deviceSn components phase view

end Code

-- What the statements of a replace can be.
theorem nextAssociations_statement {now : OffsetDateTime} {deviceSn : String}
    {components : List ComponentAssociationInput} {phase phase' : Phase} {view : Heap}
    {locks : List LockKey}
    {change : Heap → Heap} (h : nextAssociations now deviceSn components phase view =
      .statement locks change phase') :
    (phase = .begun ∧ change = id ∧ phase' = .deleting (view.replacedRows deviceSn components)) ∨
    (phase = .deleting [] ∧ change = id ∧ phase' = .upserting components) ∨
    (∃ row rows, phase = .deleting (row :: rows) ∧ view.HasRow deviceSn row ∧
      change = Heap.update (·.deleteAssociation (deviceSn, row.1)) ∧ phase' = .deleting rows) ∨
    (∃ row rows, phase = .deleting (row :: rows) ∧ ¬ view.HasRow deviceSn row ∧ change = id ∧
      phase' = .deleting rows) ∨
    (∃ item items, phase = .upserting (item :: items) ∧
      change = Heap.insertAssociation now deviceSn item ∧ phase' = .upserting items) := by
  unfold nextAssociations at h
  split at h
  · simp only [Action.statement.injEq] at h
    exact .inl ⟨rfl, h.2.1.symm, h.2.2.symm⟩
  · simp only [Action.statement.injEq] at h
    exact .inr (.inl ⟨rfl, h.2.1.symm, h.2.2.symm⟩)
  · next row rows =>
    split_ifs at h with hrow
    · simp only [Action.statement.injEq] at h
      exact .inr (.inr (.inl ⟨row, rows, rfl, hrow, h.2.1.symm, h.2.2.symm⟩))
    · simp only [Action.statement.injEq] at h
      exact .inr (.inr (.inr (.inl ⟨row, rows, rfl, hrow, h.2.1.symm, h.2.2.symm⟩)))
  · simp at h
  · next item items =>
    simp only [Action.statement.injEq] at h
    exact .inr (.inr (.inr (.inr ⟨item, items, rfl, h.2.1.symm, h.2.2.symm⟩)))
  · simp at h

end RmqttThings.Factory
