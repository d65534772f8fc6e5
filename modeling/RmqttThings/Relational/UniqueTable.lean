import Mathlib.Data.List.Nodup
import Mathlib.Order.Defs.PartialOrder

namespace Relational

-- The rows of a table with a serial primary key and a unique index, in the order of their
-- insertion. The sequence never gives out a number twice.
structure UniqueTable {Row Key : Type} (id : Row → Nat) (key : Row → Key) where
  rows : List Row
  nextId : Nat
  ids_nodup : (rows.map id).Nodup
  id_lt : ∀ row ∈ rows, id row < nextId
  keys_nodup : (rows.map key).Nodup

inductive InsertError where
  -- The sequence has reached its maximum value.
  | exhausted
  -- Another row has the key.
  | duplicate
  deriving DecidableEq

namespace UniqueTable

variable {Row Key : Type} {id : Row → Nat} {key : Row → Key}

def empty : UniqueTable id key := ⟨[], 1, List.nodup_nil, by simp, List.nodup_nil⟩

-- A row is what it is by its key.
theorem eq_of_key {table : UniqueTable id key} {row other : Row} (hrow : row ∈ table.rows)
    (hother : other ∈ table.rows) (h : key row = key other) : row = other :=
  List.inj_on_of_nodup_map table.keys_nodup hrow hother h

section Find

-- At most one row is wanted, so the first one is it.
theorem find?_eq_some_iff_of_unique {rows : List Row} {wanted : Row → Bool} {row : Row}
    (hunique : ∀ other ∈ rows, row ∈ rows → wanted other = true → wanted row = true → other = row) :
    rows.find? wanted = some row ↔ row ∈ rows ∧ wanted row = true := by
  refine ⟨fun h => ⟨List.mem_of_find?_eq_some h, List.find?_some h⟩, fun ⟨hmem, hwanted⟩ => ?_⟩
  cases hfind : rows.find? wanted with
  | none => exact absurd hwanted (List.find?_eq_none.mp hfind row hmem)
  | some other =>
      rw [hunique other (List.mem_of_find?_eq_some hfind) hmem (List.find?_some hfind) hwanted]

def findId (table : UniqueTable id key) (number : Int) : Option Row :=
  table.rows.find? fun row => (id row : Int) = number

variable [DecidableEq Key]

def findKey (table : UniqueTable id key) (wanted : Key) : Option Row :=
  table.rows.find? fun row => key row = wanted

theorem findKey_eq_some_iff {table : UniqueTable id key} {wanted : Key} {row : Row} :
    table.findKey wanted = some row ↔ row ∈ table.rows ∧ key row = wanted := by
  rw [findKey, find?_eq_some_iff_of_unique, decide_eq_true_eq]
  intro other hother hmem hwanted hwanted'
  rw [decide_eq_true_eq] at hwanted hwanted'
  exact eq_of_key hother hmem (hwanted.trans hwanted'.symm)

theorem findKey_eq_none_iff {table : UniqueTable id key} {wanted : Key} :
    table.findKey wanted = none ↔ ∀ row ∈ table.rows, key row ≠ wanted := by
  simp [findKey]

end Find

section Insert

-- The sequence is advanced first, also for a row that the index then refuses.
def advance (table : UniqueTable id key) : UniqueTable id key where
  rows := table.rows
  nextId := table.nextId + 1
  ids_nodup := table.ids_nodup
  id_lt := fun row hmem => Nat.lt_succ_of_lt (table.id_lt row hmem)
  keys_nodup := table.keys_nodup

def append (table : UniqueTable id key) (row : Row) (hid : id row = table.nextId)
    (hkey : ∀ other ∈ table.rows, key other ≠ key row) : UniqueTable id key where
  rows := table.rows ++ [row]
  nextId := table.nextId + 1
  ids_nodup := by
    rw [List.map_append, List.map_singleton, ← List.concat_eq_append, List.nodup_concat]
    refine ⟨fun hmem => ?_, table.ids_nodup⟩
    obtain ⟨other, hother, he⟩ := List.mem_map.mp hmem
    have hlt := table.id_lt other hother
    omega
  id_lt := by
    intro other hmem
    rcases List.mem_append.mp hmem with hold | hnew
    · have hlt := table.id_lt other hold
      omega
    · rw [List.mem_singleton.mp hnew]
      omega
  keys_nodup := by
    rw [List.map_append, List.map_singleton, ← List.concat_eq_append, List.nodup_concat]
    refine ⟨fun hmem => ?_, table.keys_nodup⟩
    obtain ⟨other, hother, he⟩ := List.mem_map.mp hmem
    exact hkey other hother he

variable [DecidableEq Key]

-- `INSERT`, with a sequence that ends at `limit`. `make` is the new row, by its id.
def insert (table : UniqueTable id key) (limit : Nat) (make : Nat → Row)
    (hmake : ∀ number, id (make number) = number) :
    Except InsertError Row × UniqueTable id key :=
  if table.nextId ≤ limit then
    if hkey : ∀ other ∈ table.rows, key other ≠ key (make table.nextId) then
      (.ok (make table.nextId), table.append (make table.nextId) (hmake table.nextId) hkey)
    else (.error .duplicate, table.advance)
  else (.error .exhausted, table)

-- Everything an insertion can do.
theorem insert_cases (table : UniqueTable id key) (limit : Nat) (make : Nat → Row)
    (hmake : ∀ number, id (make number) = number) :
    (∃ row, row = make table.nextId ∧ (∀ other ∈ table.rows, key other ≠ key row) ∧
      (table.insert limit make hmake).1 = .ok row ∧ (table.insert limit make hmake).2.rows =
        table.rows ++ [row] ∧
      (table.insert limit make hmake).2.nextId = table.nextId + 1) ∨
    (∃ error, (table.insert limit make hmake).1 = .error error ∧
      (table.insert limit make hmake).2.rows = table.rows ∧
      table.nextId ≤ (table.insert limit make hmake).2.nextId ∧
      (error = .duplicate → ∃ other ∈ table.rows, key other = key (make table.nextId))) := by
  unfold insert
  by_cases hlimit : table.nextId ≤ limit
  · by_cases hkey : ∀ other ∈ table.rows, key other ≠ key (make table.nextId)
    · left
      rw [if_pos hlimit, dif_pos hkey]
      exact ⟨make table.nextId, rfl, hkey, rfl, rfl, rfl⟩
    · right
      rw [if_pos hlimit, dif_neg hkey]
      refine ⟨.duplicate, rfl, rfl, Nat.le_succ _, fun _ => ?_⟩
      simpa using hkey
  · right
    rw [if_neg hlimit]
    exact ⟨.exhausted, rfl, rfl, Nat.le_refl _, fun he => by cases he⟩

end Insert

section Update

-- `UPDATE … WHERE id = …` that leaves the id and the key.
def update (table : UniqueTable id key) (number : Int) (change : Row → Row)
    (hid : ∀ row, id (change row) = id row)
    (hkey : ∀ row, key (change row) = key row) : Option Row × UniqueTable id key :=
  let changed (row : Row) : Row := if (id row : Int) = number then change row else row
  ((table.findId number).map change,
    { rows := table.rows.map changed
      nextId := table.nextId
      ids_nodup := by
        have hsame : ∀ row, id (changed row) = id row := by grind
        simpa only [List.map_map, Function.comp_def, hsame] using table.ids_nodup
      id_lt := by
        have hsame : ∀ row, id (changed row) = id row := by grind
        intro row hmem
        obtain ⟨old, hold, rfl⟩ := List.mem_map.mp hmem
        rw [hsame]
        exact table.id_lt old hold
      keys_nodup := by
        have hsame : ∀ row, key (changed row) = key row := by grind
        simpa only [List.map_map, Function.comp_def, hsame] using table.keys_nodup })

theorem mem_update {table : UniqueTable id key} {number : Int} {change : Row → Row}
    (hid : ∀ row, id (change row) = id row) (hkey : ∀ row, key (change row) = key row) {row : Row} :
    row ∈ (table.update number change hid hkey).2.rows ↔
    (row ∈ table.rows ∧ (id row : Int) ≠ number) ∨
      ∃ old ∈ table.rows, (id old : Int) = number ∧ row = change old := by
  constructor
  · intro hmem
    obtain ⟨old, hold, hrow⟩ := List.mem_map.mp hmem
    by_cases hnumber : (id old : Int) = number
    · rw [if_pos hnumber] at hrow
      exact .inr ⟨old, hold, hnumber, hrow.symm⟩
    · rw [if_neg hnumber] at hrow
      rw [← hrow]
      exact .inl ⟨hold, hnumber⟩
  · rintro (⟨hmem, hnumber⟩ | ⟨old, hold, hnumber, rfl⟩)
    · exact List.mem_map.mpr ⟨row, hmem, if_neg hnumber⟩
    · exact List.mem_map.mpr ⟨old, hold, if_pos hnumber⟩

end Update

section Later

-- A table some time later: every row is still there under its id and its key, and the ids
-- that were given out since are new.
structure Later (table later : UniqueTable id key) : Prop where
  nextId_le : table.nextId ≤ later.nextId
  kept : ∀ row ∈ table.rows, ∃ now ∈ later.rows, id now = id row ∧ key now = key row
  fresh : ∀ now ∈ later.rows, id now < table.nextId → ∃ row ∈ table.rows, id row = id now ∧
    key row = key now

theorem Later.refl (table : UniqueTable id key) : Later table table :=
  ⟨Nat.le_refl _, fun row hmem => ⟨row, hmem, rfl, rfl⟩, fun now hmem _ => ⟨now, hmem, rfl, rfl⟩⟩

theorem Later.trans {table middle later : UniqueTable id key} (h : Later table middle)
    (h' : Later middle later) :
    Later table later := by
  refine ⟨Nat.le_trans h.nextId_le h'.nextId_le, fun row hmem => ?_, fun now hmem hlt => ?_⟩
  · obtain ⟨between, hbetween, hid, hkey⟩ := h.kept row hmem
    obtain ⟨now, hnow, hid', hkey'⟩ := h'.kept between hbetween
    exact ⟨now, hnow, hid'.trans hid, hkey'.trans hkey⟩
  · have hle := h.nextId_le
    obtain ⟨between, hbetween, hid, hkey⟩ := h'.fresh now hmem (by omega)
    obtain ⟨row, hrow, hid', hkey'⟩ := h.fresh between hbetween (by omega)
    exact ⟨row, hrow, hid'.trans hid, hkey'.trans hkey⟩

instance : Preorder (UniqueTable id key) where
  le := Later
  le_refl := Later.refl
  le_trans := fun _ _ _ => Later.trans

theorem le_of_rows {table later : UniqueTable id key} (hrows : later.rows = table.rows)
    (hnextId : table.nextId ≤ later.nextId) : table ≤ later :=
  ⟨hnextId, fun row hmem => ⟨row, hrows ▸ hmem, rfl, rfl⟩, fun now hmem _ => ⟨now, hrows ▸ hmem,
    rfl, rfl⟩⟩

theorem le_insert [DecidableEq Key] (table : UniqueTable id key) (limit : Nat) (make : Nat → Row)
    (hmake : ∀ number, id (make number) = number) : table ≤ (table.insert limit make hmake).2 := by
  rcases insert_cases table limit make hmake with
    ⟨row, rfl, -, -, hrows, hnextId⟩ | ⟨error, -, hrows, hnextId, -⟩
  · refine ⟨by omega, fun row hmem => ⟨row, by simp [hrows, hmem], rfl, rfl⟩,
      fun now hmem hlt => ?_⟩
    rw [hrows, List.mem_append, List.mem_singleton] at hmem
    rcases hmem with hold | rfl
    · exact ⟨now, hold, rfl, rfl⟩
    · rw [hmake] at hlt
      omega
  · exact le_of_rows hrows hnextId

theorem le_update (table : UniqueTable id key) (number : Int) (change : Row → Row)
    (hid : ∀ row, id (change row) = id row) (hkey : ∀ row, key (change row) = key row) :
    table ≤ (table.update number change hid hkey).2 := by
  refine ⟨Nat.le_refl _, fun row hmem => ?_, fun now hmem _ => ?_⟩
  · by_cases hnumber : (id row : Int) = number
    · exact ⟨change row, (mem_update hid hkey).mpr (.inr ⟨row, hmem, hnumber, rfl⟩), hid row,
        hkey row⟩
    · exact ⟨row, (mem_update hid hkey).mpr (.inl ⟨hmem, hnumber⟩), rfl, rfl⟩
  · rcases (mem_update hid hkey).mp hmem with ⟨hold, -⟩ | ⟨old, hold, -, rfl⟩
    · exact ⟨now, hold, rfl, rfl⟩
    · exact ⟨old, hold, (hid old).symm, (hkey old).symm⟩

end Later

end UniqueTable

end Relational
