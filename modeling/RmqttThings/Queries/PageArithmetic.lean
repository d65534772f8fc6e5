import RmqttThings.Queries.DeviceOperations
import RmqttThings.Factory.Listing

namespace RmqttThings.Queries

open Paging
open Api (ApiError)
open Commands (validateIdentifier databaseError)
open Factory (ChangeLogRow queryChangeLog)

-- What `get_device_operations` checks before the query.
def checkOperationsQuery (query : DeviceOperationQuery) : Except ApiError Unit :=
  match validateIdentifier query.productId "product_id" with
  | .error error => .error error
  | .ok () =>
      match query.deviceId.elim (.ok ()) (validateIdentifier · "device_id") with
      | .error error => .error error
      | .ok () =>
          if query.page < 1 ∨ query.pageSize < 1 then .error (.badRequest "Invalid pagination")
          else .ok ()

structure FactoryChangeLogQuery where
  page : Int
  pageSize : Int

-- `as u32` of an `i64`.
def asU32 (value : Int) : Nat := (value % 2 ^ 32).toNat

-- `changeLog` is `query_change_log`, its pages counted from one.
def queryComponentChangesHandler {α : Type} (changeLog : String → Nat → Nat →
    Except String (List α × Nat)) (sn : String)
    (query : FactoryChangeLogQuery) : Except ApiError (PaginatedResponse α) :=
  match validateIdentifier sn "sn" with
  | .error error => .error error
  | .ok () =>
      let page := asU32 (max query.page 1)
      let pageSize := asU32 (max 1 (min query.pageSize 1000))
      match changeLog sn page pageSize with
      | .error _ => .error databaseError
      | .ok (rows, total) => .ok ⟨rows, ⟨page, pageSize, total⟩⟩

section Arithmetic

variable {page pageSize : Int}

theorem wrapI64_eq_iff {value : Int} : wrapI64 value = value ↔ FitsI64 value := by
  constructor
  · intro h
    have hlo : -((2 ^ 64 : Nat) / 2 : Int) ≤ wrapI64 value := Int.le_bmod (by decide)
    have hhi : wrapI64 value < ((2 ^ 64 : Nat) + 1) / 2 := Int.bmod_lt (by decide)
    rw [h] at hlo hhi
    simp only [FitsI64]
    omega
  · exact wrapI64_eq

theorem offset_exact_iff (hpage : 1 ≤ page) (hfits : FitsI64 page) (hsize : 1 ≤ pageSize) :
    (addPagination page pageSize).offset = (page - 1) * pageSize ↔
      page - 1 ≤ (2 ^ 63 - 1) / pageSize := by
  have hpred : wrapI64 (page - 1) = page - 1 := by
    simp only [FitsI64] at hfits
    exact wrapI64_eq ⟨by omega, by omega⟩
  have hnonneg : 0 ≤ (page - 1) * pageSize := Int.mul_nonneg (by omega) (by omega)
  simp only [addPagination, hpred]
  rw [wrapI64_eq_iff, Int.le_ediv_iff_mul_le (by omega)]
  simp only [FitsI64]
  omega

theorem asU32_of_lt {value : Int} (hnonneg : 0 ≤ value) (hlt : value < 2 ^ 32) :
    (asU32 value : Int) = value := by
  rw [asU32, Int.emod_eq_of_lt hnonneg hlt, Int.toNat_of_nonneg hnonneg]

theorem asU32_lt (value : Int) : (asU32 value : Int) < 2 ^ 32 := by
  have hlt := Int.emod_lt_of_pos value (show (0 : Int) < 2 ^ 32 by decide)
  unfold asU32
  omega

end Arithmetic

section Pages

theorem pages_of_checkOperationsQuery {query : DeviceOperationQuery}
    (h : checkOperationsQuery query = .ok ()) :
    1 ≤ query.page ∧ 1 ≤ query.pageSize := by
  unfold checkOperationsQuery at h
  split at h
  · cases h
  · split at h
    · cases h
    · split_ifs at h with hbounds
      omega

-- The change log is fetched from page `max(page, 1)`, and the response says so.
def PageExact (query : FactoryChangeLogQuery) : Prop :=
  ∀ sn, validateIdentifier sn "sn" = .ok () → ∀ listing : List ChangeLogRow,
    queryComponentChangesHandler (fun _ page pageSize => .ok (queryChangeLog listing page pageSize))
      sn query =
      .ok ⟨(queryChangeLog listing (max query.page 1).toNat
        (max 1 (min query.pageSize 1000)).toNat).1,
        ⟨max query.page 1, max 1 (min query.pageSize 1000), listing.length⟩⟩

theorem pageExact_iff (query : FactoryChangeLogQuery) : PageExact query ↔ query.page < 2 ^ 32 := by
  have hsize : (asU32 (max 1 (min query.pageSize 1000)) : Int) = max 1 (min query.pageSize 1000) :=
    asU32_of_lt (by omega) (by omega)
  constructor
  · intro h
    have hanswer := h "sn" (by decide +kernel) []
    rw [queryComponentChangesHandler, show validateIdentifier "sn" "sn" =
      .ok () by decide +kernel] at hanswer
    have hpage : (asU32 (max query.page 1) : Int) = max query.page 1 := by
      have hresponse := Except.ok.inj hanswer
      rw [PaginatedResponse.mk.injEq, PaginationInfo.mk.injEq] at hresponse
      exact hresponse.2.1
    have hlt := asU32_lt (max query.page 1)
    omega
  · intro h sn hsn listing
    have hpage : (asU32 (max query.page 1) : Int) = max query.page 1 :=
      asU32_of_lt (by omega) (by omega)
    have hpage' : asU32 (max query.page 1) = (max query.page 1).toNat := by omega
    have hsize' : asU32 (max 1 (min query.pageSize 1000)) =
        (max 1 (min query.pageSize 1000)).toNat := by omega
    rw [queryComponentChangesHandler, hsn]
    dsimp only
    rw [hpage, hsize, hpage', hsize']
    rfl

-- The offset is exact as far as the product fits, and the page as far as it fits `u32`.
theorem page_arithmetic_iff {query : DeviceOperationQuery} (hfits : FitsI64 query.page)
    (haccepted : checkOperationsQuery query = .ok ()) (changes : FactoryChangeLogQuery) :
    ((addPagination query.page query.pageSize).offset = (query.page - 1) * query.pageSize ↔
        query.page - 1 ≤ (2 ^ 63 - 1) / query.pageSize) ∧
      (PageExact changes ↔ changes.page < 2 ^ 32) := by
  obtain ⟨hpage, hsize⟩ := pages_of_checkOperationsQuery haccepted
  exact ⟨offset_exact_iff hpage hfits hsize, pageExact_iff changes⟩

-- The third page of ten, and of the log.
def thirdPage : DeviceOperationQuery := ⟨"p", none, none, none, 3, 10⟩

theorem ordinary_pages_exact :
    (addPagination thirdPage.page thirdPage.pageSize).offset = (thirdPage.page - 1) *
      thirdPage.pageSize ∧ PageExact ⟨3, 10⟩ := by
  obtain ⟨hoffset, hpage⟩ :=
    page_arithmetic_iff (show FitsI64 thirdPage.page from ⟨by decide, by decide⟩)
    (by decide +kernel) ⟨3, 10⟩
  exact ⟨hoffset.mpr (by decide), hpage.mpr (by decide)⟩

-- A page far out is the first page again, and page `2^32` of the log is page 1 under the number 0.
theorem far_pages_inexact :
    ¬(∀ query : DeviceOperationQuery, FitsI64 query.page → checkOperationsQuery query = .ok () →
      (addPagination query.page query.pageSize).offset = (query.page - 1) * query.pageSize) ∧
    ¬∀ query : FactoryChangeLogQuery, FitsI64 query.page → PageExact query := by
  constructor
  · intro h
    have hoffset := h ⟨"p", none, none, none, 2 ^ 62 + 1, 4⟩ ⟨by decide, by decide⟩
        (by decide +kernel)
    revert hoffset
    decide
  · intro h
    have hlt := (pageExact_iff ⟨2 ^ 32, 10⟩).mp (h ⟨2 ^ 32, 10⟩ ⟨by decide, by decide⟩)
    revert hlt
    decide

end Pages

end RmqttThings.Queries
