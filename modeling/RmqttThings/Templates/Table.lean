import RmqttThings.Json
import RmqttThings.Effects.Transactions

namespace RmqttThings.Templates

open Effects.Transactions

inductive EventValidTemplateStatus where
  | draft
  | active
  | inactive
deriving DecidableEq

-- A row of `event_valid_template`, without its instants.
structure EventValidTemplate where
  productId : String
  event : String
  description : Option String
  schema : Json
  status : EventValidTemplateStatus

def EventValidTemplate.key (template : EventValidTemplate) : String × String :=
  (template.productId, template.event)

-- The rows by id. The ids are given out in order, and never twice.
structure TemplateTable where
  rows : Nat → Option EventValidTemplate
  nextId : Nat
  fresh : ∀ id, nextId ≤ id → rows id = none

namespace TemplateTable

def empty : TemplateTable := ⟨fun _ => none, 1, fun _ _ => rfl⟩

variable (table : TemplateTable)

-- There is an Active row of this id for the product and the event.
def ActiveAt (id : Nat) (key : String × String) : Prop :=
  ∃ row, table.rows id = some row ∧ row.status = .active ∧ row.key = key

def isActiveAt (id : Nat) (key : String × String) : Bool :=
  match table.rows id with
  | some row => row.status == .active && row.key == key
  | none => false

theorem isActiveAt_iff {id : Nat} {key : String × String} :
    table.isActiveAt id key = true ↔ table.ActiveAt id key := by
  unfold isActiveAt ActiveAt
  cases hrow : table.rows id <;> simp

instance (id : Nat) (key : String × String) : Decidable (table.ActiveAt id key) :=
  decidable_of_iff _ table.isActiveAt_iff

def modify (id : Nat) (change : EventValidTemplate → EventValidTemplate) : TemplateTable where
  rows := Function.update table.rows id ((table.rows id).map change)
  nextId := table.nextId
  fresh := by
    intro other hother
    have hnone := table.fresh other hother
    by_cases he : other = id
    · simp [← he, hnone]
    · rw [Function.update_of_ne he, hnone]

def erase (id : Nat) : TemplateTable where
  rows := Function.update table.rows id none
  nextId := table.nextId
  fresh := by
    intro other hother
    by_cases he : other = id
    · simp [he]
    · rw [Function.update_of_ne he, table.fresh other hother]

def insert (template : EventValidTemplate) : TemplateTable where
  rows := Function.update table.rows table.nextId (some template)
  nextId := table.nextId + 1
  fresh := by
    intro other hother
    have hne : other ≠ table.nextId := by omega
    rw [Function.update_of_ne hne]
    exact table.fresh other (by omega)

-- The ids of the Active rows of a product and event, but for one id.
def otherActive (id : Nat) (key : String × String) : List Nat :=
  (List.range table.nextId).filter fun other => other != id && table.isActiveAt other key

end TemplateTable

namespace EventValidTemplate

def withStatus (status : EventValidTemplateStatus) (template : EventValidTemplate) :
    EventValidTemplate :=
  { template with status := status }

-- `SET schema = …, description = …`, each only if it is given.
def withContent (schema : Option Json) (description : Option String)
    (template : EventValidTemplate) :
    EventValidTemplate :=
  { template with schema := schema.getD template.schema, description :=
    description.or template.description }

end EventValidTemplate

inductive Request where
  | insert (productId event : String) (description : Option String) (schema : Json)
  | updateStatus (id : Nat) (status : EventValidTemplateStatus)
  | update (id : Nat) (schema : Option Json) (description : Option String)
  | delete (id : Nat)

-- The row that a request is about.
def Request.target : Request → Option Nat
  | .insert _ _ _ _ => none
  | .updateStatus id _ => some id
  | .update id _ _ => some id
  | .delete id => some id

-- Row locks, and the entries of the partial unique index: an entry that comes or goes in a
-- transaction makes others that want to enter the same key wait for the end of it.
inductive LockKey where
  | row (id : Nat)
  | active (key : String × String)
deriving DecidableEq

-- What a transaction has read, or what is left for it to do.
inductive Phase where
  | begun
  | locked (template : EventValidTemplate)
  | deactivating (template : EventValidTemplate) (ids : List Nat)
  | written

section Code

-- `SELECT … FOR UPDATE`. Without a row the call returns, and the transaction is dropped.
def selectForUpdate (id : Nat) (view : TemplateTable) : Action TemplateTable LockKey Phase :=
  match view.rows id with
  | none => .rollback
  | some template => .statement [.row id] (fun table => table) (.locked template)

-- The index entry that a change of status touches.
def entryLock (row : EventValidTemplate) (status : EventValidTemplateStatus) : List LockKey :=
  if row.status = .active ↔ status = .active then [] else [.active row.key]

-- `UPDATE … SET status = … WHERE id = …`. The unique index refuses a second Active row; while
-- the other row is in doubt the statement waits, and its move just comes later.
def setStatus (id : Nat) (status : EventValidTemplateStatus) (view : TemplateTable) :
    Action TemplateTable LockKey Phase :=
  match view.rows id with
  | none => .statement [] (fun table => table) .written
  | some row =>
      if status = .active ∧ row.status ≠ .active ∧ view.otherActive id row.key ≠ [] then .rollback
      else .statement (.row id :: entryLock row status)
        (fun table => table.modify id (·.withStatus status)) .written

def nextUpdateStatus (id : Nat) (status : EventValidTemplateStatus) (phase : Phase)
    (view : TemplateTable) :
    Action TemplateTable LockKey Phase :=
  match phase with
  | .begun => selectForUpdate id view
  | .locked template =>
      if status = .active then
        .statement [] (fun table => table)
          (.deactivating template (view.otherActive id template.key))
      else setStatus id status view
  -- The `UPDATE` of the others waits for each row that it has found, and looks at it again.
  | .deactivating template (other :: others) =>
      if view.ActiveAt other template.key then
        .statement [.row other, .active template.key]
          (fun table => table.modify other (·.withStatus .inactive)) (.deactivating template others)
      else .statement [] (fun table => table) (.deactivating template others)
  | .deactivating _ [] => setStatus id status view
  | .written => .commit

-- An update of the schema of an Active row is an error, one of nothing affects no row.
def nextUpdate (id : Nat) (schema : Option Json) (description : Option String) (phase : Phase)
    (view : TemplateTable) :
    Action TemplateTable LockKey Phase :=
  match phase with
  | .begun => selectForUpdate id view
  | .locked template =>
      if schema.isNone && description.isNone then .rollback
      else if schema.isSome ∧ template.status = .active then .rollback
      else .statement [.row id] (fun table => table.modify id (·.withContent schema description))
        .written
  | .written => .commit
  | .deactivating _ _ => .rollback

def nextDelete (id : Nat) (phase : Phase) (view : TemplateTable) :
    Action TemplateTable LockKey Phase :=
  match phase with
  | .begun =>
      match view.rows id with
      | none => .statement [] (fun table => table) .written
      | some row =>
          .statement (.row id :: entryLock row .draft) (fun table => table.erase id) .written
  | .written => .commit
  | _ => .rollback

-- A new row is a draft, and has no entry in the index.
def nextInsert (productId event : String) (description : Option String) (schema : Json)
    (phase : Phase) :
    Action TemplateTable LockKey Phase :=
  match phase with
  | .begun =>
      .statement [] (fun table => table.insert ⟨productId, event, description, schema, .draft⟩)
        .written
  | .written => .commit
  | _ => .rollback

def code : Code TemplateTable LockKey Request Phase where
  first := fun _ => .begun
  next := fun request phase view =>
    match request with
    | .insert productId event description schema =>
        nextInsert productId event description schema phase
    | .updateStatus id status => nextUpdateStatus id status phase view
    | .update id schema description => nextUpdate id schema description phase view
    | .delete id => nextDelete id phase view

end Code

-- The calls as a whole.
def TemplateTable.updateStatus (id : Nat) (status : EventValidTemplateStatus)
    (table : TemplateTable) : TemplateTable :=
  match table.rows id with
  | none => table
  | some row =>
      let others := if status = .active then table.otherActive id row.key else []
      (others.foldl (fun table other => table.modify other (·.withStatus .inactive)) table).modify
        id (·.withStatus status)

def TemplateTable.update (id : Nat) (schema : Option Json) (description : Option String)
    (table : TemplateTable) :
    TemplateTable :=
  match table.rows id with
  | none => table
  | some row =>
      if schema.isSome ∧ row.status = .active then table
      else table.modify id (·.withContent schema description)

def Request.apply : Request → TemplateTable → TemplateTable
  | .insert productId event description schema, table =>
      table.insert ⟨productId, event, description, schema, .draft⟩
  | .updateStatus id status, table => table.updateStatus id status
  | .update id schema description, table => table.update id schema description
  | .delete id, table => table.erase id

namespace TemplateTable

@[ext] theorem ext {table table' : TemplateTable} (hrows : ∀ id, table.rows id = table'.rows id)
    (hnext : table.nextId = table'.nextId) : table = table' := by
  obtain ⟨rows, nextId, fresh⟩ := table
  obtain ⟨rows', nextId', fresh'⟩ := table'
  obtain rfl : rows = rows' := funext hrows
  obtain rfl : nextId = nextId' := hnext
  rfl

variable (table : TemplateTable) (id other : Nat)

@[simp] theorem modify_nextId (change : EventValidTemplate → EventValidTemplate) :
    (table.modify id change).nextId = table.nextId := rfl

theorem modify_rows (change : EventValidTemplate → EventValidTemplate) :
    (table.modify id change).rows other = if other = id then (table.rows other).map
      change else table.rows other := by
  by_cases he : other = id
  · simp [modify, he]
  · simp [modify, he]

theorem erase_rows :
    (table.erase id).rows other = if other = id then none else table.rows other := by
  by_cases he : other = id
  · simp [erase, he]
  · simp [erase, he]

theorem insert_rows (template : EventValidTemplate) :
    (table.insert template).rows other = if other = table.nextId then some template else table.rows
      other := by
  by_cases he : other = table.nextId
  · simp [insert, he]
  · simp [insert, he]

variable {table id other}

-- Whether a row is Active is a matter of the row.
theorem activeAt_congr {table' : TemplateTable} (h : table.rows id = table'.rows id)
    (key : String × String) :
    table.ActiveAt id key ↔ table'.ActiveAt id key := by
  rw [ActiveAt, ActiveAt, h]

theorem mem_otherActive {key : String × String} :
    other ∈ table.otherActive id key ↔ other ≠ id ∧ table.ActiveAt other key := by
  rw [otherActive, List.mem_filter, List.mem_range, Bool.and_eq_true, isActiveAt_iff]
  simp only [bne_iff_ne]
  constructor
  · exact fun h => h.2
  · rintro ⟨hne, hactive⟩
    refine ⟨?_, hne, hactive⟩
    obtain ⟨row, hrow, -⟩ := hactive
    by_contra hge
    simp [table.fresh other (by omega)] at hrow

theorem modifyAll_rows (change : EventValidTemplate → EventValidTemplate) (ids : List Nat)
    (hnodup : ids.Nodup) (table : TemplateTable) :
    (ids.foldl (fun table other => table.modify other change) table).rows id =
      if id ∈ ids then (table.rows id).map change else table.rows id := by
  induction ids generalizing table with
  | nil => simp
  | cons first ids ih =>
      rw [List.nodup_cons] at hnodup
      rw [List.foldl_cons, ih hnodup.2, modify_rows]
      by_cases he : id = first
      · simp [he, hnodup.1]
      · simp [he]

theorem modifyAll_nextId (change : EventValidTemplate → EventValidTemplate) (ids : List Nat)
    (table : TemplateTable) :
    (ids.foldl (fun table other => table.modify other change) table).nextId = table.nextId := by
  induction ids generalizing table with
  | nil => rfl
  | cons first ids ih => exact ih (table.modify first change)

theorem otherActive_nodup (table : TemplateTable) (id : Nat) (key : String × String) :
    (table.otherActive id key).Nodup := List.nodup_range.filter _

theorem updateStatus_rows {status : EventValidTemplateStatus} {row : EventValidTemplate}
    (hrow : table.rows id = some row)
    (other : Nat) : (table.updateStatus id status).rows other =
      if other = id then some (row.withStatus status)
      else if status = .active ∧ table.ActiveAt other row.key then (table.rows other).map
        (·.withStatus .inactive)
      else table.rows other := by
  rw [updateStatus, hrow]
  simp only [modify_rows]
  by_cases hstatus : status = .active
  · rw [if_pos hstatus, modifyAll_rows _ _ (otherActive_nodup ..)]
    simp only [mem_otherActive]
    by_cases he : other = id
    · simp [he, hrow]
    · simp [he, hstatus]
  · rw [if_neg hstatus]
    by_cases he : other = id
    · simp [he, hrow]
    · simp [he, hstatus]

theorem updateStatus_nextId (table : TemplateTable) (id : Nat) (status : EventValidTemplateStatus) :
    (table.updateStatus id status).nextId = table.nextId := by
  unfold updateStatus
  cases table.rows id with
  | none => rfl
  | some row => exact modifyAll_nextId _ _ table

end TemplateTable

-- What a call can do to a row: nothing, or it is the new draft, or the row has the product and
-- the event of the template that the call is about, and keeps them.
theorem Request.apply_rows (request : Request) (table : TemplateTable) (other : Nat) :
    (request.apply table).rows other = table.rows other ∨
    (other = table.nextId ∧ ∀ row, (request.apply table).rows other = some row →
      row.status ≠ .active) ∨
    ∃ id template row, request.target = some id ∧ table.rows id = some template ∧
      table.rows other = some row ∧
      row.key = template.key ∧ ∀ row', (request.apply table).rows other = some row' →
        row'.key = row.key := by
  cases request with
  | insert productId event description schema =>
      by_cases he : other = table.nextId
      · refine .inr (.inl ⟨he, fun row hrow => ?_⟩)
        rw [apply, TemplateTable.insert_rows, if_pos he, Option.some.injEq] at hrow
        simp [← hrow]
      · exact .inl (by rw [apply, TemplateTable.insert_rows, if_neg he])
  | updateStatus id status =>
      cases hfound : table.rows id with
      | none => exact .inl (by rw [apply, TemplateTable.updateStatus, hfound])
      | some template =>
          have hrows : (table.updateStatus id status).rows other = _ :=
            TemplateTable.updateStatus_rows hfound other
          split_ifs at hrows with he hactive
          · subst he
            refine .inr (.inr ⟨other, template, template, rfl, hfound, hfound, rfl,
              fun row' hrow' => ?_⟩)
            rw [apply, hrows, Option.some.injEq] at hrow'
            rw [← hrow']
            rfl
          · obtain ⟨-, row, hrow, -, hkey⟩ := hactive
            refine .inr (.inr ⟨id, template, row, rfl, hfound, hrow, hkey, fun row' hrow' => ?_⟩)
            rw [apply, hrows, hrow, Option.map_some, Option.some.injEq] at hrow'
            rw [← hrow']
            rfl
          · exact .inl hrows
  | update id schema description =>
      rw [apply, TemplateTable.update]
      cases hfound : table.rows id with
      | none => exact .inl rfl
      | some template =>
          dsimp only
          split_ifs
          · exact .inl rfl
          · by_cases he : other = id
            · subst he
              refine .inr (.inr ⟨other, template, template, rfl, hfound, hfound, rfl,
                fun row' hrow' => ?_⟩)
              rw [TemplateTable.modify_rows, if_pos rfl, hfound, Option.map_some,
                Option.some.injEq] at hrow'
              rw [← hrow']
              rfl
            · exact .inl (by rw [TemplateTable.modify_rows, if_neg he])
  | delete id =>
      rw [apply]
      by_cases he : other = id
      · subst he
        cases hfound : table.rows other with
        | none => exact .inl (by rw [TemplateTable.erase_rows, if_pos rfl])
        | some template =>
            refine .inr (.inr ⟨other, template, template, rfl, hfound, rfl, rfl,
              fun row' hrow' => ?_⟩)
            rw [TemplateTable.erase_rows, if_pos rfl] at hrow'
            cases hrow'
      · exact .inl (by rw [TemplateTable.erase_rows, if_neg he])

theorem Request.nextId_le_apply (request : Request) (table : TemplateTable) :
    table.nextId ≤ (request.apply table).nextId := by
  cases request with
  | insert => exact Nat.le_succ _
  | updateStatus => exact (TemplateTable.updateStatus_nextId ..).ge
  | update id schema description =>
      rw [apply, TemplateTable.update]
      cases table.rows id with
      | none => exact le_rfl
      | some template =>
          dsimp only
          split_ifs <;> exact le_rfl
  | delete => exact le_rfl

end RmqttThings.Templates
