import RmqttThings.Queries.Pagination
import RmqttThings.Commands.World

namespace RmqttThings.Queries

open Paging
open Commands (CommandRow CommandTable CommandStatus CommandSource PropertyCommand ActionInvocation)

section Filters

variable {β : Type}

-- `add_device_product_filter`.
def ofProduct (productId : String) (deviceId : Option String) (row : CommandRow β) : Bool :=
  row.productId == productId && deviceId.all (row.deviceId == ·)

def ofStatus (status : Option CommandStatus) (row : CommandRow β) : Bool :=
  status.all (row.status == ·)

-- `ORDER BY updated_time DESC`.
abbrev ByUpdatedTime (β : Type) : CommandRow β → CommandRow β → Prop :=
  Descends CommandRow.updatedTime

end Filters

structure PropertyCommandQuery where
  productId : String
  deviceId : Option String
  status : Option CommandStatus
  source : Option CommandSource

def PropertyCommandQuery.rows (query : PropertyCommandQuery)
    (table : CommandTable PropertyCommand) :
    List (CommandRow PropertyCommand) :=
  table.rows.filter fun row => ofProduct query.productId query.deviceId row &&
    ofStatus query.status row && query.source.all (row.body.source == ·)

def queryPropertyCommandsBySource (order : OrderBy (ByUpdatedTime PropertyCommand))
    (table : CommandTable PropertyCommand) (query : PropertyCommandQuery) (page pageSize : Int) :
    Except String (List (CommandRow PropertyCommand) × Int) :=
  pagedQuery order (query.rows table) page pageSize

structure ActionInvocationQuery where
  productId : String
  deviceId : Option String
  serviceType : Option String
  status : Option CommandStatus

def ActionInvocationQuery.rows (query : ActionInvocationQuery)
    (table : CommandTable ActionInvocation) :
    List (CommandRow ActionInvocation) :=
  table.rows.filter fun row => ofProduct query.productId query.deviceId row &&
    query.serviceType.all (row.body.serviceType == ·) && ofStatus query.status row

def queryActionInvocations (order : OrderBy (ByUpdatedTime ActionInvocation))
    (table : CommandTable ActionInvocation) (query : ActionInvocationQuery) (page pageSize : Int) :
    Except String (List (CommandRow ActionInvocation) × Int) :=
  pagedQuery order (query.rows table) page pageSize

section Pages

variable {α : Type} {le : α → α → Prop} {rows : List α} {pageSize : Int}

-- However each query arranges what is equal in the sort key, the pages `1` to
-- `ceil(total / page_size)` hold every row exactly once.
def Partitions (rows : List α) (total pageSize : Int)
    (query : OrderBy le → Int → Except String (List α × Int)) : Prop :=
  ∀ orders : Nat → OrderBy le, ∃ listing,
    concatPages (fun page => (query (orders page.toNat) page).map Prod.fst)
      (pageCount total.toNat pageSize.toNat) =
      .ok listing ∧ listing.Perm rows

theorem concatPages_pagedQuery (hsize : 1 ≤ pageSize) {total : Int}
    (hcount : countRows rows = .ok total) (orders : Nat → OrderBy le) :
    concatPages (fun page => (pagedQuery (orders page.toNat) rows page pageSize).map Prod.fst)
        (pageCount total.toNat pageSize.toNat) =
      .ok (pages (fun page => (orders (page + 1)).arrange rows) pageSize.toNat
        (pageCount rows.length pageSize.toNat)) := by
  have htotal := (countRows_ok_iff.mp hcount).1
  rw [htotal, Int.toNat_natCast]
  apply concatPages_eq
  intro page hpage
  rw [pagedQuery_of_lt_pageCount hsize hcount hpage]
  rfl

-- The database may choose any arrangement of these rows.
theorem exists_orderBy (order : OrderBy le) {listing : List α} (h : Arranges le rows listing) :
    ∃ chosen : OrderBy le, chosen.arrange rows = listing := by
  classical
  refine ⟨⟨fun others => if others = rows then listing else order.arrange others, fun others => ?_⟩,
    if_pos rfl⟩
  by_cases hrows : others = rows
  · rw [if_pos hrows, hrows]
    exact h
  · rw [if_neg hrows]
    exact order.arranges others

end Pages

section Ties

variable {α κ : Type} [LinearOrder κ] {key : α → κ} {rows : List α} {pageSize : Int}

def sorting (key : α → κ) : OrderBy (Descends key) where
  arrange rows := rows.insertionSort (Descends key)
  arranges rows := ⟨List.perm_insertionSort _ rows, List.pairwise_insertionSort _ rows⟩

theorem partitions_iff_unsplit (hsize : 1 ≤ pageSize) {total : Int}
    (hcount : countRows rows = .ok total) (hnodup : rows.Nodup) :
    Partitions rows total pageSize (fun (order : OrderBy (Descends key)) page =>
      pagedQuery order rows page pageSize) ↔
      Unsplit key rows pageSize.toNat := by
  rw [← pages_perm_iff_unsplit (show 0 < pageSize.toNat by omega) hnodup]
  constructor
  · intro h orders horders
    have hchoice (page : Nat) :
        ∃ order : OrderBy (Descends key), order.arrange rows = orders (page - 1) :=
      exists_orderBy (sorting key) (horders (page - 1))
    choose chosen hchosen using hchoice
    obtain ⟨listing, hlisting, hperm⟩ := h chosen
    rw [concatPages_pagedQuery hsize hcount, Except.ok.injEq] at hlisting
    simpa only [hchosen, Nat.add_sub_cancel, ← hlisting] using hperm
  · intro h orders
    exact ⟨_, concatPages_pagedQuery hsize hcount orders,
      h _ fun page => (orders (page + 1)).arranges rows⟩

end Ties

section Commands

variable {β : Type}

theorem filter_nodup (table : CommandTable β) (select : CommandRow β → Bool) :
    (table.rows.filter select).Nodup :=
  table.unique.of_map.filter select

-- The pages of either query are right for every choice of the database exactly if the rows
-- of one time are on one page.
theorem command_pages_iff {pageSize : Int} (hsize : 1 ≤ pageSize) :
    (∀ table (query : PropertyCommandQuery) total, countRows (query.rows table) = .ok total →
      (Partitions (query.rows table) total pageSize
          (fun order page => queryPropertyCommandsBySource order table query page pageSize) ↔
        Unsplit CommandRow.updatedTime (query.rows table) pageSize.toNat)) ∧
    ∀ table (query : ActionInvocationQuery) total, countRows (query.rows table) = .ok total →
      (Partitions (query.rows table) total pageSize
          (fun order page => queryActionInvocations order table query page pageSize) ↔
        Unsplit CommandRow.updatedTime (query.rows table) pageSize.toNat) := by
  constructor
  · intro table query total hcount
    exact partitions_iff_unsplit hsize hcount (filter_nodup table _)
  · intro table query total hcount
    exact partitions_iff_unsplit hsize hcount (filter_nodup table _)

end Commands

section Demo

-- A drain has sent two commands at once, and a second one two others.
def drained : CommandTable PropertyCommand :=
  ((CommandTable.empty.insert "p" "d" ⟨.null, .oneShot⟩ 1).insert "p" "d" ⟨.null,
    .oneShot⟩ 2).update (CommandTable.ofDevice "p" "d") .sent .pending 3

def drainedTwice : CommandTable PropertyCommand :=
  ((drained.insert "p" "e" ⟨.null, .oneShot⟩ 4).insert "p" "e" ⟨.null, .oneShot⟩ 4).update
    (CommandTable.ofDevice "p" "e") .sent .pending 5

-- Two actions were deleted at once, and two others afterwards.
def deletedActions : CommandTable ActionInvocation :=
  ((CommandTable.empty.insert "p" "d" ⟨"reboot", .null⟩ 1).insert "p" "d" ⟨"reboot",
    .null⟩ 2).update ([1, 2].contains ·.id) .deleted .pending 3

def deletedTwice : CommandTable ActionInvocation :=
  ((deletedActions.insert "p" "d" ⟨"reboot", .null⟩ 4).insert "p" "d" ⟨"reboot", .null⟩ 4).update
    ([3, 4].contains ·.id) .deleted .pending 5

def allDrained : PropertyCommandQuery := ⟨"p", none, none, none⟩

def allDeleted : ActionInvocationQuery := ⟨"p", none, none, none⟩

-- On pages of two rows each, what one statement has changed is on one page.
theorem drained_on_one_page :
    Partitions (allDrained.rows drainedTwice) 4 2
        (fun order page => queryPropertyCommandsBySource order drainedTwice allDrained page 2) ∧
      Partitions (allDeleted.rows deletedTwice) 4 2
        (fun order page => queryActionInvocations order deletedTwice allDeleted page 2) := by
  have hdrained : countRows (allDrained.rows drainedTwice) = .ok 4 := by decide +kernel
  have hdeleted : countRows (allDeleted.rows deletedTwice) = .ok 4 := by decide +kernel
  constructor
  · exact ((command_pages_iff (by decide)).1 drainedTwice allDrained 4 hdrained).mpr
      (by decide +kernel)
  · exact ((command_pages_iff (by decide)).2 deletedTwice allDeleted 4 hdeleted).mpr
      (by decide +kernel)

-- On pages of one row each, a row can be shown twice, and the other one is lost.
theorem drained_split :
    ¬Partitions (allDrained.rows drained) 2 1
        (fun order page => queryPropertyCommandsBySource order drained allDrained page 1) ∧
      ¬Partitions (allDeleted.rows deletedActions) 2 1
        (fun order page => queryActionInvocations order deletedActions allDeleted page 1) := by
  have hdrained : countRows (allDrained.rows drained) = .ok 2 := by decide +kernel
  have hdeleted : countRows (allDeleted.rows deletedActions) = .ok 2 := by decide +kernel
  constructor
  · intro h
    have hunsplit := (partitions_iff_unsplit (Int.le_refl 1) hdrained (filter_nodup drained _)).mp h
    revert hunsplit
    decide +kernel
  · intro h
    have hunsplit := (partitions_iff_unsplit (Int.le_refl 1) hdeleted
        (filter_nodup deletedActions _)).mp h
    revert hunsplit
    decide +kernel

end Demo

end RmqttThings.Queries
