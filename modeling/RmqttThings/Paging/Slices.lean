import Mathlib.Data.List.Sort
import Mathlib.Data.List.Nodup
import Mathlib.Data.List.Pairwise

namespace Paging

variable {α : Type}

-- One page of an order. Pages are counted from zero here.
def slice (order : List α) (size page : Nat) : List α := (order.drop (page * size)).take size

-- The first pages one after the other, each cut out of an order of its own.
def pages (orders : Nat → List α) (size count : Nat) : List α :=
  (List.range count).flatMap fun page => slice (orders page) size page

-- The quotient, rounded up.
def pageCount (total size : Nat) : Nat := (total + size - 1) / size

section Slices

variable {size : Nat}

theorem lt_pageCount (hsize : 0 < size) {total place : Nat} (h : place < total) :
    place / size < pageCount total size := by
  rw [pageCount, Nat.lt_div_iff_mul_lt hsize]
  have hdiv := Nat.div_mul_le_self place size
  omega

theorem mul_lt_of_lt_pageCount (hsize : 0 < size) {total page : Nat}
    (h : page < pageCount total size) :
    page * size < total := by
  rw [pageCount, Nat.lt_div_iff_mul_lt hsize] at h
  omega

theorem le_pageCount_mul (hsize : 0 < size) (total : Nat) :
    total ≤ pageCount total size * size := by
  have hmod := Nat.mod_lt (total + size - 1) hsize
  have hdiv := Nat.div_add_mod (total + size - 1) size
  rw [Nat.mul_comm] at hdiv
  unfold pageCount
  omega

-- A row is on the page of its place.
theorem mem_slice_iff (hsize : 0 < size) {order : List α} {page : Nat} {row : α} :
    row ∈ slice order size page ↔ ∃ place, order[place]? = some row ∧ place / size = page := by
  rw [slice, List.mem_iff_getElem?]
  constructor
  · rintro ⟨index, hindex⟩
    have hlt : index < size := by
      have hlen := (List.getElem?_eq_some_iff.mp hindex).1
      simp only [List.length_take] at hlen
      omega
    rw [List.getElem?_take_of_lt hlt, List.getElem?_drop] at hindex
    refine ⟨page * size + index, hindex, ?_⟩
    rw [Nat.add_comm, Nat.add_mul_div_right _ _ hsize, Nat.div_eq_of_lt hlt, Nat.zero_add]
  · rintro ⟨place, hplace, rfl⟩
    have hmod := Nat.div_add_mod place size
    rw [Nat.mul_comm] at hmod
    refine ⟨place % size, ?_⟩
    rw [List.getElem?_take_of_lt (Nat.mod_lt _ hsize), List.getElem?_drop, hmod, hplace]

theorem map_slice {β : Type} (f : α → β) (order : List α) (size page : Nat) :
    (slice order size page).map f = slice (order.map f) size page := by
  simp only [slice, List.map_take, List.map_drop]

theorem mem_pages {orders : Nat → List α} {count : Nat} {row : α} :
    row ∈ pages orders size count ↔ ∃ page < count, row ∈ slice (orders page) size page := by
  simp [pages]

-- Pages without duplicates share no row.
theorem pages_disjoint {orders : Nat → List α} {count : Nat} (h : (pages orders size count).Nodup)
    {page other : Nat} (hpage : page < count) (hother : other < count) (hne : page ≠ other)
    {row : α}
    (hrow : row ∈ slice (orders page) size page) : row ∉ slice (orders other) size other := by
  have hpairs := (List.nodup_flatMap.mp h).2
  have hsymm : Std.Symm (Function.onFun List.Disjoint fun page => slice (orders page) size page) :=
    ⟨fun _ _ hdisjoint row hother hpage => hdisjoint hpage hother⟩
  exact hpairs.forall (List.mem_range.mpr hpage) (List.mem_range.mpr hother) hne hrow

-- The pages of one order are its rows, as far as the pages go.
theorem pages_const (order : List α) (size count : Nat) :
    pages (fun _ => order) size count = order.take (count * size) := by
  induction count with
  | zero => simp [pages]
  | succ count ih =>
      have hlast : pages (fun _ => order) size (count + 1) =
          pages (fun _ => order) size count ++ slice order size count := by
        simp [pages, List.range_succ]
      rw [hlast, ih, slice, Nat.succ_mul, List.take_add]

theorem pages_all (hsize : 0 < size) (order : List α) :
    pages (fun _ => order) size (pageCount order.length size) = order := by
  rw [pages_const, List.take_of_length_le (le_pageCount_mul hsize _)]

end Slices

-- `ORDER BY`: the rows, sorted; rows that are equal for the sort key come in any order.
structure Arranges (le : α → α → Prop) (rows listing : List α) : Prop where
  perm : listing.Perm rows
  sorted : listing.Pairwise le

section Unique

variable {le : α → α → Prop} {rows listing other : List α}

-- A key that no two rows share leaves no choice.
theorem Arranges.unique (hanti : ∀ a ∈ rows, ∀ b ∈ rows, le a b → le b a → a = b)
    (h : Arranges le rows listing) (h' : Arranges le rows other) : listing = other := by
  refine List.Perm.eq_of_pairwise ?_ h.sorted h'.sorted (h.perm.trans h'.perm.symm)
  intro a b ha hb
  exact hanti a (h.perm.mem_iff.mp ha) b (h'.perm.mem_iff.mp hb)

end Unique

section Lexicographic

variable {κ : Type} [LinearOrder κ] {key : α → κ} {tie : α → α → Prop} {row next last : α}

-- A sort key, and an order for the rows that share it.
def Lex (key : α → κ) (tie : α → α → Prop) (row next : α) : Prop :=
  key row < key next ∨ key row = key next ∧ tie row next

theorem Lex.total (htie : tie row next ∨ tie next row) :
    Lex key tie row next ∨ Lex key tie next row := by
  rcases lt_trichotomy (key row) (key next) with hlt | heq | hgt
  · exact .inl (.inl hlt)
  · rcases htie with hle | hge
    · exact .inl (.inr ⟨heq, hle⟩)
    · exact .inr (.inr ⟨heq.symm, hge⟩)
  · exact .inr (.inl hgt)

theorem Lex.trans (htie : tie row next → tie next last → tie row last) (h : Lex key tie row next)
    (h' : Lex key tie next last) : Lex key tie row last := by
  rcases h with hlt | ⟨heq, hle⟩
  · rcases h' with hlt' | ⟨heq', -⟩
    · exact .inl (hlt.trans hlt')
    · exact .inl (heq' ▸ hlt)
  · rcases h' with hlt' | ⟨heq', hle'⟩
    · exact .inl (heq ▸ hlt')
    · exact .inr ⟨heq.trans heq', htie hle hle'⟩

theorem Lex.tie_of_symm (h : Lex key tie row next) (h' : Lex key tie next row) :
    tie row next ∧ tie next row := by
  rcases h with hlt | ⟨heq, hle⟩
  · rcases h' with hgt | ⟨heq, -⟩
    · exact absurd hlt (lt_asymm hgt)
    · exact absurd heq hlt.ne'
  · rcases h' with hgt | ⟨-, hge⟩
    · exact absurd heq hgt.ne'
    · exact ⟨hle, hge⟩

end Lexicographic

end Paging
