import RmqttThings.Time
import Mathlib.Data.List.Sort

namespace RmqttThings.Commands

inductive CommandStatus where
  | pending
  | sent
  | success
  | failed
  | deleted
  deriving DecidableEq

-- A row of `property_command` or of `action_invocation`. The two tables have the
-- same columns for the delivery; `body` holds the columns of their own.
structure CommandRow (β : Type) where
  id : Int
  productId : String
  deviceId : String
  status : CommandStatus
  createdTime : OffsetDateTime
  updatedTime : OffsetDateTime
  body : β

variable {β : Type}

namespace CommandRow

def moved (status : CommandStatus) (now : OffsetDateTime) (row : CommandRow β) : CommandRow β :=
  { row with status := status, updatedTime := now }

@[simp] theorem moved_id (status : CommandStatus) (now : OffsetDateTime) (row : CommandRow β) :
    (row.moved status now).id = row.id := rfl

@[simp] theorem moved_status (status : CommandStatus) (now : OffsetDateTime) (row : CommandRow β) :
    (row.moved status now).status = status := rfl

@[simp] theorem moved_createdTime (status : CommandStatus) (now : OffsetDateTime)
    (row : CommandRow β) :
    (row.moved status now).createdTime = row.createdTime := rfl

@[simp] theorem moved_body (status : CommandStatus) (now : OffsetDateTime) (row : CommandRow β) :
    (row.moved status now).body = row.body := rfl

-- `ORDER BY created_time ASC, id ASC`.
def LE (a b : CommandRow β) : Prop :=
  a.createdTime < b.createdTime ∨ (a.createdTime = b.createdTime ∧ a.id ≤ b.id)

instance : DecidableRel (LE (β := β)) := fun _ _ => inferInstanceAs (Decidable (_ ∨ _))

instance : Std.Total (LE (β := β)) where
  total a b := by
    rcases lt_trichotomy a.createdTime b.createdTime with h | h | h
    · exact .inl (.inl h)
    · rcases le_total a.id b.id with hid | hid
      · exact .inl (.inr ⟨h, hid⟩)
      · exact .inr (.inr ⟨h.symm, hid⟩)
    · exact .inr (.inl h)

instance : IsTrans (CommandRow β) LE where
  trans a b c hab hbc := by
    rcases hab with h | ⟨h, hid⟩ <;> rcases hbc with h' | ⟨h', hid'⟩
    · exact .inl (h.trans h')
    · exact .inl (h' ▸ h)
    · exact .inl (h ▸ h')
    · exact .inr ⟨h.trans h', hid.trans hid'⟩

-- Submitted strictly before.
def Before (a b : CommandRow β) : Prop :=
  a.createdTime < b.createdTime ∨ (a.createdTime = b.createdTime ∧ a.id < b.id)

theorem not_le_of_before {a b : CommandRow β} (h : a.Before b) : ¬b.LE a := by
  simp only [Before, LE] at h ⊢
  grind

end CommandRow

-- The primary key is unique, and the sequence behind it is ahead of every row.
structure CommandTable (β : Type) where
  rows : List (CommandRow β)
  nextId : Int
  unique : (rows.map (·.id)).Nodup
  ahead : ∀ row ∈ rows, row.id < nextId

namespace CommandTable

def empty : CommandTable β where
  rows := []
  nextId := 1
  unique := List.nodup_nil
  ahead := by simp

def find (table : CommandTable β) (id : Int) : Option (CommandRow β) :=
  table.rows.find? (·.id == id)

-- A new row is Pending, and `created_time` and `updated_time` are the statement's time.
def newRow (table : CommandTable β) (productId deviceId : String) (body : β)
    (now : OffsetDateTime) :
    CommandRow β where
  id := table.nextId
  productId := productId
  deviceId := deviceId
  status := .pending
  createdTime := now
  updatedTime := now
  body := body

def insert (table : CommandTable β) (productId deviceId : String) (body : β)
    (now : OffsetDateTime) :
    CommandTable β where
  rows := table.rows ++ [table.newRow productId deviceId body now]
  nextId := table.nextId + 1
  unique := by
    rw [List.map_append, List.nodup_append]
    refine ⟨table.unique, by simp, ?_⟩
    intro id hid other hother he
    simp only [List.map_cons, List.map_nil, List.mem_singleton] at hother
    obtain ⟨row, hrow, rfl⟩ := List.mem_map.mp hid
    have hlt := table.ahead row hrow
    simp only [hother, newRow] at he
    omega
  ahead := by
    intro row hrow
    rcases List.mem_append.mp hrow with hold | hnew
    · have hlt := table.ahead row hold
      omega
    · rw [List.mem_singleton.mp hnew]
      exact Int.lt_succ table.nextId

-- `UPDATE … SET status = $status, updated_time = now WHERE <cond> AND status = $prev`.
def update (table : CommandTable β) (cond : CommandRow β → Bool) (status prev : CommandStatus)
    (now : OffsetDateTime) : CommandTable β where
  rows := table.rows.map fun row => if cond row && row.status == prev then row.moved status
    now else row
  nextId := table.nextId
  unique := by
    have hid : (fun row : CommandRow β => row.id) ∘
        (fun row => if cond row && row.status == prev then row.moved status now else row) =
          (·.id) := by
      funext row
      simp only [Function.comp]
      split_ifs <;> rfl
    rw [List.map_map, hid]
    exact table.unique
  ahead := by
    intro row hrow
    obtain ⟨old, hold, rfl⟩ := List.mem_map.mp hrow
    have hlt := table.ahead old hold
    split_ifs <;> exact hlt

def affected (table : CommandTable β) (cond : CommandRow β → Bool) (prev : CommandStatus) : Nat :=
  table.rows.countP fun row => cond row && row.status == prev

def ofDevice (productId deviceId : String) (row : CommandRow β) : Bool :=
  row.productId == productId && row.deviceId == deviceId

-- The Pending rows of a device in submission order.
def queue (table : CommandTable β) (productId deviceId : String) : List (CommandRow β) :=
  (table.rows.filter fun row => ofDevice productId deviceId row &&
    row.status == .pending).insertionSort CommandRow.LE

theorem find_eq_some_iff (table : CommandTable β) (id : Int) (row : CommandRow β) :
    table.find id = some row ↔ row ∈ table.rows ∧ row.id = id := by
  constructor
  · intro h
    exact ⟨List.mem_of_find?_eq_some h, by simpa using List.find?_some h⟩
  · rintro ⟨hmem, rfl⟩
    cases hfind : table.rows.find? (·.id == row.id) with
    | none => exact absurd BEq.rfl (List.find?_eq_none.mp hfind row hmem)
    | some other =>
        have hother : other.id = row.id := by simpa using List.find?_some hfind
        have hsame := List.inj_on_of_nodup_map table.unique (List.mem_of_find?_eq_some hfind)
            hmem hother
        rw [find, hfind, hsame]

theorem find_id {table : CommandTable β} {id : Int} {row : CommandRow β}
    (h : table.find id = some row) :
    row.id = id := ((table.find_eq_some_iff id row).mp h).2

theorem find_update (table : CommandTable β) (cond : CommandRow β → Bool)
    (status prev : CommandStatus) (now : OffsetDateTime) (id : Int) :
    (table.update cond status prev now).find id = (table.find id).map fun row =>
      if cond row && row.status == prev then row.moved status now else row := by
  have hid : (fun row : CommandRow β => row.id == id) ∘
      (fun row => if cond row && row.status == prev then row.moved status now else row) =
        (·.id == id) := by
    funext row
    simp only [Function.comp]
    split_ifs <;> rfl
  rw [find, find, update, List.find?_map, hid]

theorem find_insert (table : CommandTable β) (productId deviceId : String) (body : β)
    (now : OffsetDateTime) (id : Int) :
    (table.insert productId deviceId body now).find id =
      if id = table.nextId then some (table.newRow productId deviceId body now)
      else table.find id := by
  have hnew : (table.newRow productId deviceId body now).id = table.nextId := rfl
  by_cases h : id = table.nextId
  · rw [if_pos h, find_eq_some_iff, hnew]
    exact ⟨by simp [insert], h.symm⟩
  · have hne : (table.nextId == id) = false := beq_eq_false_iff_ne.mpr (Ne.symm h)
    rw [if_neg h, find, find, insert, List.find?_append]
    simp [hnew, hne]

theorem find_nextId (table : CommandTable β) : table.find table.nextId = none := by
  rw [find, List.find?_eq_none]
  intro row hrow
  have hlt := table.ahead row hrow
  simp only [beq_iff_eq]
  omega

theorem mem_queue (table : CommandTable β) (productId deviceId : String) (row : CommandRow β) :
    row ∈ table.queue productId deviceId ↔
      row ∈ table.rows ∧ row.productId = productId ∧ row.deviceId = deviceId ∧
        row.status = .pending := by
  simp [queue, ofDevice, List.mem_insertionSort, and_assoc]

theorem mem_queue_ids (table : CommandTable β) (productId deviceId : String) (id : Int) :
    id ∈ (table.queue productId deviceId).map (·.id) ↔
      ∃ row, table.find id = some row ∧ ofDevice productId deviceId row = true ∧
        row.status = .pending := by
  simp only [List.mem_map, mem_queue, find_eq_some_iff, ofDevice, Bool.and_eq_true, beq_iff_eq]
  grind

-- A row of the queue is the row of its id.
theorem eq_of_mem_queue {table : CommandTable β} {productId deviceId : String}
    {row found : CommandRow β} (hfound : found ∈ table.queue productId deviceId)
    (hid : found.id = row.id) (hrow : table.find row.id = some row) :
    found = row := by
  have hmem := ((table.mem_queue productId deviceId found).mp hfound).1
  have hfind := (table.find_eq_some_iff row.id found).mpr ⟨hmem, hid⟩
  exact Option.some.inj (hfind.symm.trans hrow)

theorem queue_sorted (table : CommandTable β) (productId deviceId : String) :
    (table.queue productId deviceId).Pairwise CommandRow.LE := List.pairwise_insertionSort _ _

theorem queue_nodup (table : CommandTable β) (productId deviceId : String) :
    ((table.queue productId deviceId).map (·.id)).Nodup := by
  have hperm := (List.perm_insertionSort CommandRow.LE
    (table.rows.filter fun row => ofDevice productId deviceId row && row.status == .pending)).map
      (·.id)
  rw [queue, hperm.nodup_iff]
  exact table.unique.sublist (List.filter_sublist.map _)

theorem queue_length_le (table : CommandTable β) (productId deviceId : String) :
    (table.queue productId deviceId).length ≤ table.rows.length := by
  rw [queue, List.length_insertionSort]
  exact List.length_filter_le _ _

-- A list in submission order is known by its members.
theorem eq_of_sorted {rows others : List (CommandRow β)} (hsorted : rows.Pairwise CommandRow.LE)
    (hsorted' : others.Pairwise CommandRow.LE) (hnodup : (rows.map (·.id)).Nodup)
    (hnodup' : (others.map (·.id)).Nodup)
    (hmem : ∀ row, row ∈ rows ↔ row ∈ others) : rows = others := by
  have hperm : rows.Perm others :=
    (List.perm_ext_iff_of_nodup hnodup.of_map hnodup'.of_map).mpr hmem
  apply hperm.eq_of_pairwise _ hsorted hsorted'
  intro a b ha hb hab hba
  apply List.inj_on_of_nodup_map hnodup' ((hmem a).mp ha) hb
  simp only [CommandRow.LE] at hab hba
  grind

theorem queue_eq {table : CommandTable β} {productId deviceId : String} {rows : List (CommandRow β)}
    (hsorted : rows.Pairwise CommandRow.LE) (hnodup : (rows.map (·.id)).Nodup)
    (hmem : ∀ row, row ∈ table.queue productId deviceId ↔ row ∈ rows) :
    table.queue productId deviceId = rows :=
  eq_of_sorted (table.queue_sorted productId deviceId) hsorted
    (table.queue_nodup productId deviceId) hnodup hmem

theorem mem_queue_insert {table : CommandTable β} {productId deviceId : String} {body : β}
    {now : OffsetDateTime} {row : CommandRow β} :
    row ∈ (table.insert productId deviceId body now).queue productId deviceId ↔
      row ∈ table.queue productId deviceId ∨ row = table.newRow productId deviceId body now := by
  simp only [mem_queue, insert, List.mem_append, List.mem_singleton]
  constructor
  · rintro ⟨hold | hnew, hrest⟩
    · exact .inl ⟨hold, hrest⟩
    · exact .inr hnew
  · rintro (⟨hold, hrest⟩ | rfl)
    · exact ⟨.inl hold, hrest⟩
    · exact ⟨.inr rfl, rfl, rfl, rfl⟩

-- A new row stands behind all older rows of the queue.
theorem filter_queue_insert {table : CommandTable β} {productId deviceId : String} {body : β}
    {now : OffsetDateTime} {keep : CommandRow β → Bool}
    (hkeep : keep (table.newRow productId deviceId body now) = true)
    (hold : ∀ row ∈ table.queue productId deviceId, keep row = true → row.createdTime ≤ now) :
    ((table.insert productId deviceId body now).queue productId deviceId).filter keep =
      (table.queue productId deviceId).filter keep ++
        [table.newRow productId deviceId body now] := by
  have hbehind : ∀ row ∈ (table.queue productId deviceId).filter keep, row.createdTime ≤ now ∧
      row.id < table.nextId := by
    intro row hrow
    obtain ⟨hmem, hkept⟩ := List.mem_filter.mp hrow
    exact ⟨hold row hmem hkept, table.ahead row ((table.mem_queue _ _ row).mp hmem).1⟩
  apply eq_of_sorted
  · exact (queue_sorted _ _ _).filter _
  · rw [List.pairwise_append]
    refine ⟨(queue_sorted _ _ _).filter _, List.pairwise_singleton _ _, ?_⟩
    intro row hrow new hnew
    obtain ⟨htime, hid⟩ := hbehind row hrow
    rw [List.mem_singleton.mp hnew]
    rcases htime.lt_or_eq with hlt | heq
    · exact .inl hlt
    · exact .inr ⟨heq, hid.le⟩
  · exact (queue_nodup _ _ _).sublist (List.filter_sublist.map _)
  · rw [List.map_append, List.nodup_append]
    refine ⟨(queue_nodup _ _ _).sublist (List.filter_sublist.map _), by simp, ?_⟩
    intro id hid other hother he
    obtain ⟨row, hrow, rfl⟩ := List.mem_map.mp hid
    have hlt := (hbehind row hrow).2
    simp only [List.map_cons, List.map_nil, List.mem_singleton, newRow] at hother
    omega
  · intro row
    simp only [List.mem_filter, mem_queue_insert, List.mem_append, List.mem_singleton]
    constructor
    · rintro ⟨hmem | rfl, hkept⟩
      · exact .inl ⟨hmem, hkept⟩
      · exact .inr rfl
    · rintro (⟨hmem, hkept⟩ | rfl)
      · exact ⟨.inl hmem, hkept⟩
      · exact ⟨.inr rfl, hkeep⟩

-- A status change of rows that are not Pending is not seen in the queue.
theorem queue_update (table : CommandTable β) (productId deviceId : String)
    (cond : CommandRow β → Bool) {status prev : CommandStatus} (hprev : prev ≠ .pending)
    (hstatus : status ≠ .pending) (now : OffsetDateTime) :
    (table.update cond status prev now).queue productId deviceId = table.queue productId
      deviceId := by
  apply queue_eq (table.queue_sorted productId deviceId) (table.queue_nodup productId deviceId)
  intro row
  simp only [mem_queue, update, List.mem_map]
  constructor
  · rintro ⟨⟨old, hold, rfl⟩, hrest⟩
    split_ifs at hrest ⊢ with hcond
    · exact absurd hrest.2.2 hstatus
    · exact ⟨hold, hrest⟩
  · rintro ⟨hrow, hrest⟩
    refine ⟨⟨row, hrow, if_neg ?_⟩, hrest⟩
    simp [hrest.2.2, Ne.symm hprev]

-- Claiming the first row leaves the others.
theorem queue_claim {table : CommandTable β} {productId deviceId : String} {row : CommandRow β}
    {rest : List (CommandRow β)} (h : table.queue productId deviceId = row :: rest)
    (now : OffsetDateTime) :
    (table.update (·.id == row.id) .sent .pending now).queue productId deviceId = rest := by
  have hsorted := table.queue_sorted productId deviceId
  have hnodup := table.queue_nodup productId deviceId
  have hmem := table.mem_queue productId deviceId
  rw [h] at hsorted hnodup hmem
  rw [List.map_cons, List.nodup_cons] at hnodup
  apply queue_eq (List.pairwise_cons.mp hsorted).2 hnodup.2
  intro other
  simp only [mem_queue, update, List.mem_map]
  constructor
  · rintro ⟨⟨old, hold, rfl⟩, hrest⟩
    split_ifs at hrest ⊢ with hcond
    · exact absurd hrest.2.2 (by simp)
    · rcases List.mem_cons.mp ((hmem old).mpr ⟨hold, hrest⟩) with rfl | hin
      · exact absurd hrest.2.2 (by simpa using hcond)
      · exact hin
  · intro hin
    obtain ⟨hold, hrest⟩ := (hmem other).mp (List.mem_cons_of_mem _ hin)
    have hne : other.id ≠ row.id := fun he => hnodup.1 (he ▸ List.mem_map_of_mem hin)
    exact ⟨⟨other, hold, by simp [hne]⟩, hrest⟩

end CommandTable

end RmqttThings.Commands
