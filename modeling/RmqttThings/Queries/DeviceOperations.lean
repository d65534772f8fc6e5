import RmqttThings.Queries.CommandPages
import RmqttThings.Commands.Runs
import Mathlib.Data.String.Basic

namespace RmqttThings.Queries

open Paging
open Commands (CommandRow CommandStatus CommandSource PropertyCommand ActionInvocation Tables
  correlationId)

inductive DeviceOperationType where
  | targetSync
  | directPropertyWrite
  | actionInvocation
  deriving DecidableEq

structure DeviceOperationQuery where
  productId : String
  deviceId : Option String
  operationType : Option DeviceOperationType
  status : Option CommandStatus
  page : Int
  pageSize : Int

-- A row of the result of the query.
structure DeviceOperationRow where
  operationId : String
  operationType : String
  name : String
  payload : Json
  status : CommandStatus
  createdTime : OffsetDateTime
  updatedTime : OffsetDateTime

structure DeviceOperationView where
  operationId : String
  operationType : DeviceOperationType
  name : String
  payload : Json
  status : CommandStatus
  createdTime : OffsetDateTime
  updatedTime : OffsetDateTime

-- The projections of the two branches of `push_device_operation_union`.
def propertyOperation (row : CommandRow PropertyCommand) : DeviceOperationRow where
  operationId := "property:" ++ toString row.id
  operationType :=
    match row.body.source with
    | .oneShot => "directPropertyWrite"
    | .desiredDelta => "targetSync"
  name :=
    match row.body.source with
    | .oneShot => "Set properties"
    | .desiredDelta => "Sync target"
  payload := row.body.command
  status := row.status
  createdTime := row.createdTime
  updatedTime := row.updatedTime

def actionOperation (row : CommandRow ActionInvocation) : DeviceOperationRow where
  operationId := "action:" ++ toString row.id
  operationType := "actionInvocation"
  name := row.body.serviceType
  payload := row.body.params
  status := row.status
  createdTime := row.createdTime
  updatedTime := row.updatedTime

-- The type filters of the branches.
def propertyTypeFilter (operationType : Option DeviceOperationType)
    (row : CommandRow PropertyCommand) : Bool :=
  match operationType with
  | some .directPropertyWrite => row.body.source == .oneShot
  | some .targetSync => row.body.source == .desiredDelta
  | some .actionInvocation => false
  | none => true

def actionTypeFilter (operationType : Option DeviceOperationType) : Bool :=
  match operationType with
  | some .directPropertyWrite | some .targetSync => false
  | _ => true

-- `push_device_operation_union`, the `FROM` of the data query and of the count query.
def deviceOperationUnion (t : Tables) (query : DeviceOperationQuery) : List DeviceOperationRow :=
  ((t.propertyCommands.rows.filter fun row => ofProduct query.productId query.deviceId row &&
    ofStatus query.status row && propertyTypeFilter query.operationType row).map
      propertyOperation) ++
  (t.actionInvocations.rows.filter fun row => ofProduct query.productId query.deviceId row &&
    ofStatus query.status row && actionTypeFilter query.operationType).map actionOperation

-- The order of texts in the database. It is deterministic: equal texts are the same.
structure Collation where
  le : String → String → Prop
  total : ∀ a b, le a b ∨ le b a
  trans : ∀ a b c, le a b → le b c → le a c
  antisymm : ∀ a b, le a b → le b a → a = b

-- `ORDER BY updated_time DESC, operation_id DESC`.
def ByTimeAndId {α : Type} (collation : Collation) (time : α → OffsetDateTime)
    (operationId : α → String) (row next : α) : Prop :=
  time next < time row ∨ time next = time row ∧ collation.le (operationId next) (operationId row)

abbrev ByUpdatedTimeAndId (collation : Collation) :
    DeviceOperationRow → DeviceOperationRow → Prop :=
  ByTimeAndId collation DeviceOperationRow.updatedTime DeviceOperationRow.operationId

def DeviceOperationType.ofConstant : String → Option DeviceOperationType
  | "directPropertyWrite" => some .directPropertyWrite
  | "targetSync" => some .targetSync
  | "actionInvocation" => some .actionInvocation
  | _ => none

def DeviceOperationRow.toView (row : DeviceOperationRow) : Except String DeviceOperationView :=
  match DeviceOperationType.ofConstant row.operationType with
  | none => .error ("unknown device operation type constant: " ++ row.operationType)
  | some operationType =>
      .ok ⟨row.operationId, operationType, row.name, row.payload, row.status, row.createdTime,
      row.updatedTime⟩

def queryDeviceOperations {collation : Collation} (order : OrderBy (ByUpdatedTimeAndId collation))
    (t : Tables)
    (query : DeviceOperationQuery) : Except String (PaginatedResponse DeviceOperationView) := do
  let rows ← (addPagination query.page query.pageSize).fetch
      (order.arrange (deviceOperationUnion t query))
  let operations ← rows.mapM DeviceOperationRow.toView
  let total ← countRows (deviceOperationUnion t query)
  return ⟨operations, ⟨query.page, query.pageSize, total⟩⟩

section Operations

-- What the view is about: every row of the two tables is one operation of its device.
structure DeviceOperation where
  productId : String
  deviceId : String
  view : DeviceOperationView

def DeviceOperation.ofPropertyCommand (row : CommandRow PropertyCommand) : DeviceOperation where
  productId := row.productId
  deviceId := row.deviceId
  view :=
    match row.body.source with
    | .oneShot =>
        ⟨correlationId (.property, row.id), .directPropertyWrite, "Set properties",
          row.body.command,
        row.status, row.createdTime, row.updatedTime⟩
    | .desiredDelta =>
        ⟨correlationId (.property, row.id), .targetSync, "Sync target", row.body.command,
        row.status, row.createdTime, row.updatedTime⟩

def DeviceOperation.ofActionInvocation (row : CommandRow ActionInvocation) : DeviceOperation where
  productId := row.productId
  deviceId := row.deviceId
  view := ⟨correlationId (.action, row.id), .actionInvocation, row.body.serviceType,
    row.body.params, row.status, row.createdTime, row.updatedTime⟩

def allOperations (t : Tables) : List DeviceOperation :=
  t.propertyCommands.rows.map DeviceOperation.ofPropertyCommand ++
    t.actionInvocations.rows.map DeviceOperation.ofActionInvocation

def DeviceOperationQuery.wants (query : DeviceOperationQuery) (operation : DeviceOperation) :
    Bool :=
  operation.productId == query.productId && query.deviceId.all (operation.deviceId == ·) &&
    query.status.all (operation.view.status == ·) && query.operationType.all
      (operation.view.operationType == ·)

-- The operations that match all filters.
def matchingOperations (t : Tables) (query : DeviceOperationQuery) : List DeviceOperationView :=
  ((allOperations t).filter query.wants).map (·.view)

end Operations

section Union

variable {t : Tables} {query : DeviceOperationQuery}

-- The row as a view; every row of the union has one of the three constants.
def DeviceOperationRow.decoded (row : DeviceOperationRow) : DeviceOperationView :=
  ⟨row.operationId, (DeviceOperationType.ofConstant row.operationType).getD .actionInvocation,
    row.name, row.payload, row.status, row.createdTime, row.updatedTime⟩

theorem decoded_propertyOperation (row : CommandRow PropertyCommand) :
    (propertyOperation row).decoded = (DeviceOperation.ofPropertyCommand row).view := by
  unfold propertyOperation DeviceOperation.ofPropertyCommand DeviceOperationRow.decoded
  cases row.body.source with
  | oneShot => rfl
  | desiredDelta => rfl

theorem decoded_actionOperation (row : CommandRow ActionInvocation) :
    (actionOperation row).decoded = (DeviceOperation.ofActionInvocation row).view := rfl

theorem toView_of_mem {row : DeviceOperationRow} (h : row ∈ deviceOperationUnion t query) :
    row.toView = .ok row.decoded := by
  rcases List.mem_append.mp h with h | h
  · obtain ⟨command, -, rfl⟩ := List.mem_map.mp h
    unfold propertyOperation DeviceOperationRow.toView DeviceOperationRow.decoded
    cases command.body.source with
    | oneShot => rfl
    | desiredDelta => rfl
  · obtain ⟨invocation, -, rfl⟩ := List.mem_map.mp h
    rfl

theorem mapM_toView {rows : List DeviceOperationRow}
    (h : ∀ row ∈ rows, row ∈ deviceOperationUnion t query) :
    rows.mapM DeviceOperationRow.toView = .ok (rows.map DeviceOperationRow.decoded) := by
  induction rows with
  | nil => rfl
  | cons row rows ih =>
      rw [List.mapM_cons, toView_of_mem (h row List.mem_cons_self),
        ih fun other hother => h other (List.mem_cons_of_mem _ hother)]
      rfl

theorem propertyTypeFilter_eq (operationType : Option DeviceOperationType)
    (row : CommandRow PropertyCommand) :
    propertyTypeFilter operationType row =
      operationType.all ((DeviceOperation.ofPropertyCommand row).view.operationType == ·) := by
  unfold propertyTypeFilter DeviceOperation.ofPropertyCommand
  cases row.body.source with
  | oneShot => cases operationType with
      | none => rfl
      | some type => cases type <;> rfl
  | desiredDelta => cases operationType with
      | none => rfl
      | some type => cases type <;> rfl

theorem status_ofPropertyCommand (row : CommandRow PropertyCommand) :
    (DeviceOperation.ofPropertyCommand row).view.status = row.status := by
  unfold DeviceOperation.ofPropertyCommand
  cases row.body.source with
  | oneShot => rfl
  | desiredDelta => rfl

-- The union is the projection of the operations that match.
theorem map_decoded_union (t : Tables) (query : DeviceOperationQuery) :
    (deviceOperationUnion t query).map DeviceOperationRow.decoded = matchingOperations t query := by
  unfold deviceOperationUnion matchingOperations allOperations
  rw [List.map_append, List.filter_append, List.map_append, List.filter_map, List.filter_map]
  simp only [List.map_map]
  congr 1
  · have hwants : query.wants ∘ DeviceOperation.ofPropertyCommand = fun row =>
        ofProduct query.productId query.deviceId row && ofStatus query.status row &&
          propertyTypeFilter query.operationType row := by
      funext row
      simp only [Function.comp_apply, DeviceOperationQuery.wants, propertyTypeFilter_eq,
        status_ofPropertyCommand]
      rfl
    rw [hwants]
    exact List.map_congr_left fun row _ => decoded_propertyOperation row
  · have hwants : query.wants ∘ DeviceOperation.ofActionInvocation = fun row =>
        ofProduct query.productId query.deviceId row && ofStatus query.status row &&
          actionTypeFilter query.operationType := by
      funext row
      simp only [Function.comp_apply, DeviceOperationQuery.wants]
      congr 1
      cases query.operationType with
      | none => rfl
      | some type => cases type <;> rfl
    rw [hwants]
    exact List.map_congr_left fun row _ => decoded_actionOperation row

end Union

section Ids

theorem operationId_property (row : CommandRow PropertyCommand) :
    (DeviceOperation.ofPropertyCommand row).view.operationId = correlationId (.property,
      row.id) := by
  unfold DeviceOperation.ofPropertyCommand
  cases row.body.source with
  | oneShot => rfl
  | desiredDelta => rfl

theorem operationIds_nodup (t : Tables) : ((allOperations t).map (·.view.operationId)).Nodup := by
  have hids : (allOperations t).map (·.view.operationId) =
      ((t.propertyCommands.rows.map fun row => (Commands.Queue.property, row.id)) ++
        t.actionInvocations.rows.map fun row => (Commands.Queue.action, row.id)).map
          correlationId := by
    simp only [allOperations, List.map_append, List.map_map]
    congr 1
    exact List.map_congr_left fun row _ => operationId_property row
  rw [hids]
  apply List.Nodup.map_on
  · exact fun key _ other _ => Commands.correlationId_inj
  · rw [List.nodup_append]
    refine ⟨?_, ?_, ?_⟩
    · have hunique := t.propertyCommands.unique.map (f := fun id => (Commands.Queue.property, id))
          fun _ _ h => by simpa using h
      rw [List.map_map] at hunique
      exact hunique
    · have hunique := t.actionInvocations.unique.map (f := fun id => (Commands.Queue.action, id))
          fun _ _ h => by simpa using h
      rw [List.map_map] at hunique
      exact hunique
    · simp

theorem matchingIds_nodup (t : Tables) (query : DeviceOperationQuery) :
    ((matchingOperations t query).map (·.operationId)).Nodup := by
  unfold matchingOperations
  rw [List.map_map]
  exact (operationIds_nodup t).sublist (List.filter_sublist.map _)

end Ids

section Pages

variable {collation : Collation} {t : Tables} {query : DeviceOperationQuery}

theorem total_of_queryDeviceOperations {order : OrderBy (ByUpdatedTimeAndId collation)}
    {response : PaginatedResponse DeviceOperationView}
    (h : queryDeviceOperations order t query = .ok response) :
    countRows (deviceOperationUnion t query) = .ok response.pagination.total := by
  obtain ⟨rows, -, hrest⟩ := bind_ok h
  obtain ⟨views, -, hrest⟩ := bind_ok hrest
  obtain ⟨total, hcount, hrest⟩ := bind_ok hrest
  rw [hcount, ← Except.ok.inj hrest]

theorem queryDeviceOperations_of_lt_pageCount (hsize : 1 ≤ query.pageSize) {total : Int}
    (hcount : countRows (deviceOperationUnion t query) = .ok total) {page : Nat}
    (hpage : page < pageCount (deviceOperationUnion t query).length query.pageSize.toNat)
    (order : OrderBy (ByUpdatedTimeAndId collation)) :
    queryDeviceOperations order t { query with page := page + 1 } =
      .ok ⟨slice ((order.arrange (deviceOperationUnion t query)).map DeviceOperationRow.decoded)
        query.pageSize.toNat page, ⟨page + 1, query.pageSize, total⟩⟩ := by
  have hunion : deviceOperationUnion t { query with page := page + 1 } = deviceOperationUnion t
      query := rfl
  have hfetch := fetch_of_lt_pageCount hsize (countRows_ok_iff.mp hcount).2 hpage
    (order.arrange (deviceOperationUnion t query))
  have hrows : ∀ row ∈ slice (order.arrange (deviceOperationUnion t query)) query.pageSize.toNat
      page, row ∈ deviceOperationUnion t query := by
    intro row hrow
    exact (order.arranges _).perm.mem_iff.mp (List.mem_of_mem_drop (List.mem_of_mem_take hrow))
  have hviews := mapM_toView hrows
  rw [map_slice] at hviews
  rw [queryDeviceOperations, hunion, hfetch, ok_bind, hviews, ok_bind, hcount, ok_bind]
  rfl

theorem byUpdatedTimeAndId_eq (row next : DeviceOperationRow) :
    ByUpdatedTimeAndId collation row next =
    Lex DeviceOperationRow.updatedTime (fun next row => collation.le next.operationId
      row.operationId) next row := rfl

-- The sort key leaves no choice.
theorem byTimeAndId_antisymm {row other : DeviceOperationRow}
    (hrow : row ∈ deviceOperationUnion t query) (hother : other ∈ deviceOperationUnion t query)
    (h : ByUpdatedTimeAndId collation row other)
    (h' : ByUpdatedTimeAndId collation other row) : row = other := by
  have hids : ((deviceOperationUnion t query).map (·.operationId)).Nodup := by
    have hviews := matchingIds_nodup t query
    rw [← map_decoded_union, List.map_map] at hviews
    exact hviews
  rw [byUpdatedTimeAndId_eq] at h h'
  obtain ⟨hle, hge⟩ := h.tie_of_symm h'
  exact List.inj_on_of_nodup_map hids hrow hother (collation.antisymm _ _ hge hle)

theorem concatPages_operations (hsize : 1 ≤ query.pageSize) {total : Int}
    (hcount : countRows (deviceOperationUnion t query) = .ok total)
    (order : OrderBy (ByUpdatedTimeAndId collation))
    (orders : Nat → OrderBy (ByUpdatedTimeAndId collation)) :
    concatPages (fun page => (queryDeviceOperations (orders page.toNat) t { query with
      page := page }).map (·.data))
        (pageCount total.toNat query.pageSize.toNat) =
      .ok ((order.arrange (deviceOperationUnion t query)).map DeviceOperationRow.decoded) := by
  have hlength : ((order.arrange (deviceOperationUnion t query)).map
      DeviceOperationRow.decoded).length = total.toNat := by
    rw [List.length_map, (order.arranges _).perm.length_eq, (countRows_ok_iff.mp hcount).1,
      Int.toNat_natCast]
  rw [← pages_all (show 0 < query.pageSize.toNat by omega)
    ((order.arrange (deviceOperationUnion t query)).map DeviceOperationRow.decoded), hlength]
  apply concatPages_eq
  intro page hpage
  rw [← hlength, List.length_map, (order.arranges _).perm.length_eq] at hpage
  have hsame (chosen : OrderBy (ByUpdatedTimeAndId collation)) :
      chosen.arrange (deviceOperationUnion t query) = order.arrange
        (deviceOperationUnion t query) :=
    (chosen.arranges _).unique (fun _ hrow _ hother => byTimeAndId_antisymm hrow hother)
      (order.arranges _)
  rw [queryDeviceOperations_of_lt_pageCount hsize hcount hpage, hsame]
  rfl

-- The pages that the total tells are the operations that match, each once and in order,
-- whatever each query does with equal sort keys.
theorem device_operation_pages (hsize : 1 ≤ query.pageSize)
    {order : OrderBy (ByUpdatedTimeAndId collation)} {first : PaginatedResponse DeviceOperationView}
    (hfirst : queryDeviceOperations order t { query with page := 1 } = .ok first)
    (orders : Nat → OrderBy (ByUpdatedTimeAndId collation)) :
    first.pagination.total = (matchingOperations t query).length ∧
      ∃ listing, concatPages
          (fun page => (queryDeviceOperations (orders page.toNat) t { query with page := page }).map
            (·.data))
          (pageCount first.pagination.total.toNat query.pageSize.toNat) = .ok listing ∧
        listing.Perm (matchingOperations t query) ∧ (listing.map (·.operationId)).Nodup ∧
        listing.Pairwise (ByTimeAndId collation (·.updatedTime) (·.operationId)) := by
  have hcount := total_of_queryDeviceOperations hfirst
  change countRows (deviceOperationUnion t query) = .ok first.pagination.total at hcount
  have harranges := order.arranges (deviceOperationUnion t query)
  have hperm := harranges.perm.map DeviceOperationRow.decoded
  rw [map_decoded_union] at hperm
  refine ⟨?_, _, concatPages_operations hsize hcount order orders, hperm, ?_, ?_⟩
  · rw [(countRows_ok_iff.mp hcount).1, ← map_decoded_union, List.length_map]
  · exact (hperm.map (·.operationId)).nodup_iff.mpr (matchingIds_nodup t query)
  · exact List.pairwise_map.mpr harranges.sorted

end Pages

section Demo

def Collation.codepoints : Collation where
  le a b := a ≤ b
  total := le_total
  trans := fun _ _ _ => le_trans
  antisymm := fun _ _ => le_antisymm

instance (row next : DeviceOperationRow) : Decidable (ByUpdatedTimeAndId .codepoints row next) :=
  inferInstanceAs (Decidable (_ ∨ _ ∧ next.operationId ≤ row.operationId))

instance (collation : Collation) : Std.Total (ByUpdatedTimeAndId collation) where
  total row next := by
    rw [byUpdatedTimeAndId_eq, byUpdatedTimeAndId_eq]
    exact Lex.total (collation.total _ _)

instance (collation : Collation) : IsTrans DeviceOperationRow (ByUpdatedTimeAndId collation) where
  trans row next last h h' := by
    rw [byUpdatedTimeAndId_eq] at h h' ⊢
    exact h'.trans (collation.trans _ _ _) h

def sortingOperations : OrderBy (ByUpdatedTimeAndId .codepoints) where
  arrange rows := rows.insertionSort (ByUpdatedTimeAndId .codepoints)
  arranges rows := ⟨List.perm_insertionSort _ rows, List.pairwise_insertionSort _ rows⟩

-- Two commands and two actions of one time, on pages of three.
def demoTables : Tables :=
  { Tables.empty with propertyCommands := drained, actionInvocations := deletedActions }

def demoOperations : DeviceOperationQuery := ⟨"p", some "d", none, none, 1, 3⟩

theorem count_demo : countRows (deviceOperationUnion demoTables demoOperations) = .ok 4 := by
  decide +kernel

theorem demo_pages : ∃ listing, concatPages
      (fun page => (queryDeviceOperations sortingOperations demoTables { demoOperations with
        page := page }).map (·.data))
      2 = .ok listing ∧ listing.Perm (matchingOperations demoTables demoOperations) ∧
    (listing.map (·.operationId)).Nodup ∧
    listing.Pairwise (ByTimeAndId .codepoints (·.updatedTime) (·.operationId)) :=
  (device_operation_pages (show 1 ≤ demoOperations.pageSize by decide)
    (queryDeviceOperations_of_lt_pageCount (by decide) count_demo
      (show 0 < pageCount (deviceOperationUnion demoTables demoOperations).length
        3 by decide +kernel) sortingOperations)
    fun _ => sortingOperations).2

end Demo

end RmqttThings.Queries
