import RmqttThings.Paging.Ties
import RmqttThings.Time

namespace RmqttThings.Queries

open Paging

-- What `add_pagination` binds.
structure Pagination where
  limit : Int
  offset : Int

-- The arithmetic is that of `i64`.
def addPagination (page pageSize : Int) : Pagination where
  limit := pageSize
  offset := wrapI64 (wrapI64 (page - 1) * pageSize)

variable {α : Type} {le : α → α → Prop}

-- `LIMIT` and `OFFSET` of a result that is ordered.
def Pagination.fetch (bounds : Pagination) (listing : List α) : Except String (List α) :=
  if bounds.limit < 0 then .error "LIMIT must not be negative"
  else if bounds.offset < 0 then .error "OFFSET must not be negative"
  else .ok ((listing.drop bounds.offset.toNat).take bounds.limit.toNat)

-- `COUNT(*)` is a `bigint`.
def countRows (rows : List α) : Except String Int :=
  if (rows.length : Int) < 2 ^ 63 then .ok rows.length else .error "bigint out of range"

-- One execution of `ORDER BY`. The database is free where the sort key leaves a choice.
structure OrderBy (le : α → α → Prop) where
  arrange : List α → List α
  arranges : ∀ rows, Arranges le rows (arrange rows)

-- The data query and the count query over the rows that match.
def pagedQuery (order : OrderBy le) (rows : List α) (page pageSize : Int) :
    Except String (List α × Int) := do
  let data ← (addPagination page pageSize).fetch (order.arrange rows)
  let total ← countRows rows
  return (data, total)

-- Pages `1` to `last`, one after the other.
def concatPages (fetchPage : Int → Except String (List α)) : (last : Nat) → Except String (List α)
  | 0 => .ok []
  | last + 1 => do
      let earlier ← concatPages fetchPage last
      let page ← fetchPage (last + 1)
      return earlier ++ page

structure PaginationInfo where
  page : Int
  pageSize : Int
  total : Int

structure PaginatedResponse (α : Type) where
  data : List α
  pagination : PaginationInfo

section Ranges

theorem ok_bind {α β : Type} (value : α) (next : α → Except String β) :
    (Except.ok value >>= next) = next value := rfl

-- Each query of a response has been answered.
theorem bind_ok {α β : Type} {answer : Except String α} {next : α → Except String β} {value : β}
    (h : answer >>= next = .ok value) : ∃ found, answer = .ok found ∧ next found = .ok value := by
  cases answer with
  | error text => cases h
  | ok found => exact ⟨found, rfl, h⟩

variable {pageSize : Int} {rows : List α}

theorem countRows_ok_iff {total : Int} :
    countRows rows = .ok total ↔ total = rows.length ∧ FitsI64 rows.length := by
  unfold countRows FitsI64
  split_ifs with h
  · simp only [Except.ok.injEq]
    omega
  · simp only [false_iff, not_and]
    omega

-- Within the pages that a result has, the offset is exact.
theorem offset_of_lt_pageCount (hsize : 1 ≤ pageSize) (hfits : FitsI64 rows.length) {page : Nat}
    (hpage : page < pageCount rows.length pageSize.toNat) :
    (addPagination (page + 1) pageSize).offset = page * pageSize := by
  have hlt := mul_lt_of_lt_pageCount (show 0 < pageSize.toNat by omega) hpage
  obtain ⟨size, rfl⟩ : ∃ size : Nat, pageSize = size := ⟨pageSize.toNat, by omega⟩
  rw [Int.toNat_natCast] at hlt
  have hle : page ≤ page * size := Nat.le_mul_of_pos_right page (by omega)
  simp only [FitsI64] at hfits
  have hpred : wrapI64 ((page : Int) + 1 - 1) = page := by
    rw [Int.add_sub_cancel]
    exact wrapI64_eq ⟨by omega, by omega⟩
  have hfits : FitsI64 ((page : Int) * size) := by
    rw [← Int.natCast_mul]
    exact ⟨by omega, by omega⟩
  simp only [addPagination, hpred]
  exact wrapI64_eq hfits

theorem fetch_of_lt_pageCount (hsize : 1 ≤ pageSize) (hfits : FitsI64 rows.length) {page : Nat}
    (hpage : page < pageCount rows.length pageSize.toNat) (listing : List α) :
    (addPagination (page + 1) pageSize).fetch listing =
      .ok (slice listing pageSize.toNat page) := by
  have hoffset := offset_of_lt_pageCount hsize hfits hpage
  obtain ⟨size, rfl⟩ : ∃ size : Nat, pageSize = size := ⟨pageSize.toNat, by omega⟩
  rw [Pagination.fetch, hoffset, if_neg, if_neg]
  · simp only [addPagination, Int.toNat_natCast, slice]
    rfl
  · have hnonneg := Int.natCast_nonneg (page * size)
    push_cast at hnonneg
    omega
  · simp only [addPagination]
    omega

theorem pagedQuery_of_lt_pageCount (hsize : 1 ≤ pageSize) {total : Int}
    (hcount : countRows rows = .ok total) {page : Nat}
    (hpage : page < pageCount rows.length pageSize.toNat) (order : OrderBy le) :
    pagedQuery order rows (page + 1) pageSize = .ok (slice (order.arrange rows) pageSize.toNat page,
      total) := by
  rw [pagedQuery, fetch_of_lt_pageCount hsize (countRows_ok_iff.mp hcount).2 hpage, hcount]
  rfl

theorem concatPages_eq {fetchPage : Int → Except String (List α)} {orders : Nat → List α}
    {size last : Nat}
    (h : ∀ page < last, fetchPage (page + 1) = .ok (slice (orders page) size page)) :
    concatPages fetchPage last = .ok (pages orders size last) := by
  induction last with
  | zero => rfl
  | succ last ih =>
      have hlast : pages orders size (last + 1) = pages orders size last ++ slice (orders last) size
          last := by
        simp [pages, List.range_succ]
      rw [concatPages, ih fun page hpage => h page (Nat.lt_succ_of_lt hpage),
        h last (Nat.lt_succ_self last), hlast]
      rfl

end Ranges

end RmqttThings.Queries
