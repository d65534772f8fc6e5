import RmqttThings.Paging.Samples
import RmqttThings.Queries.Pagination
import RmqttThings.Commands.Handlers

namespace RmqttThings.Queries

open Paging
open Api (ApiError)
open Commands (validateIdentifier databaseError)

-- A row of `property_history`.
structure PropertyHistory where
  id : Int
  productId : String
  deviceId : String
  properties : Json
  reportedTime : Option OffsetDateTime
  createdTime : Option OffsetDateTime

structure HistoryTable where
  rows : List PropertyHistory
  unique : (rows.map (·.id)).Nodup

-- `COALESCE(reported_time, created_time)`.
def PropertyHistory.effectiveTime (row : PropertyHistory) : Option OffsetDateTime :=
  row.reportedTime <|> row.createdTime

structure SeriesFilter where
  productId : String
  deviceId : String
  key : String
  startTime : OffsetDateTime
  endTime : OffsetDateTime

-- A row of `matched`.
structure MatchedRow where
  id : Int
  t : OffsetDateTime
  v : Json

-- `push_series_filter` and the projection. What is `NULL` does not pass a comparison.
def SeriesFilter.select (filter : SeriesFilter) (row : PropertyHistory) : Option MatchedRow :=
  if row.productId = filter.productId ∧ row.deviceId = filter.deviceId then
    match row.effectiveTime, row.properties.get filter.key with
    | some t, some (.number value) =>
        if filter.startTime ≤ t ∧ t ≤ filter.endTime then some ⟨row.id, t, .number value⟩ else none
    | _, _ => none
  else none

def HistoryTable.matched (table : HistoryTable) (filter : SeriesFilter) : List MatchedRow :=
  table.rows.filterMap filter.select

def maxSeriesPoints : Int := 1000

-- The arithmetic is that of `i64`.
def seriesStride (total : Int) : Int :=
  max ((wrapI64 (wrapI64 (total + maxSeriesPoints) - 1)).tdiv maxSeriesPoints) 1

-- `ORDER BY t, id` of the window, and `ORDER BY t` of the result.
def ByTimeThenId (row next : MatchedRow) : Prop :=
  row.t < next.t ∨ row.t = next.t ∧ row.id ≤ next.id

def ByTime (entry next : MatchedRow × Nat) : Prop := entry.1.t ≤ next.1.t

structure PropertySeriesPoint where
  time : OffsetDateTime
  value : Json

def MatchedRow.point (row : MatchedRow) : PropertySeriesPoint := ⟨row.t, row.v⟩

def countPropertySeriesPoints (table : HistoryTable) (filter : SeriesFilter) : Except String Int :=
  countRows (table.matched filter)

-- `row_number()` counts from one.
def queryPropertySeriesPoints (window : OrderBy ByTimeThenId) (order : OrderBy ByTime)
    (table : HistoryTable)
    (filter : SeriesFilter) (stride limit : Int) : Except String (List PropertySeriesPoint) :=
  let numbered := (window.arrange (table.matched filter)).zipIdx 1
  if stride = 0 ∧ numbered ≠ [] then .error "division by zero"
  else do
    let sampled := numbered.filter fun entry => ((entry.2 : Int) - 1).tmod stride = 0
    let entries ← Pagination.fetch ⟨limit, 0⟩ (order.arrange sampled)
    return entries.map (·.1.point)

structure PropertySeriesView where
  key : String
  totalPoints : Int
  downsampled : Bool
  stride : Int
  points : List PropertySeriesPoint

-- What the two queries for one key find, and how the second one orders it.
structure SeriesReads where
  counted : HistoryTable
  queried : HistoryTable
  window : OrderBy ByTimeThenId
  order : OrderBy ByTime

-- The body of the loop over the keys.
def propertySeries (reads : SeriesReads) (filter : SeriesFilter) :
    Except String PropertySeriesView := do
  let total ← countPropertySeriesPoints reads.counted filter
  let stride := seriesStride total
  let points ← queryPropertySeriesPoints reads.window reads.order reads.queried filter stride
      maxSeriesPoints
  return ⟨filter.key, total, decide (1 < stride), stride, points⟩

def keysError : ApiError := .badRequest "keys must contain 1 to 5 non-empty property keys"

def rangeError : ApiError := .badRequest "invalid start_time or end_time"

-- One round of `normalize_series_keys`. The length is counted in bytes.
def addSeriesKey (normalized : List String) (key : String) : Except ApiError (List String) :=
  if key.isEmpty ∨ key.utf8ByteSize > 128 then .error keysError
  else if normalized.contains key then .ok normalized
  else .ok (normalized ++ [key])

def normalizeSeriesKeys (keys : List String) : Except ApiError (List String) :=
  match keys.foldlM addSeriesKey [] with
  | .error error => .error error
  | .ok normalized =>
      if normalized.isEmpty ∨ normalized.length > 5 then .error keysError else .ok normalized

-- `parse` is `OffsetDateTime::parse` with `Rfc3339`.
def parseSeriesRange (parse : String → Except String OffsetDateTime) (startTime endTime : String) :
    Except ApiError (OffsetDateTime × OffsetDateTime) :=
  match parse startTime, parse endTime with
  | .ok start, .ok stop => if start ≥ stop then .error rangeError else .ok (start, stop)
  | _, _ => .error rangeError

structure PropertySeriesQuery where
  productId : String
  deviceId : String
  keys : List String
  startTime : String
  endTime : String

def PropertySeriesQuery.filter (query : PropertySeriesQuery)
    (range : OffsetDateTime × OffsetDateTime) (key : String) :
    SeriesFilter :=
  ⟨query.productId, query.deviceId, key, range.1, range.2⟩

-- An error of either query ends the request.
def seriesAnswer (reads : SeriesReads) (filter : SeriesFilter) :
    Except ApiError PropertySeriesView :=
  (propertySeries reads filter).mapError fun _ => databaseError

-- `reads` are the answers of the database to the queries for each key.
def getPropertyHistorySeries (parse : String → Except String OffsetDateTime)
    (reads : String → SeriesReads)
    (query : PropertySeriesQuery) : Except ApiError (List PropertySeriesView) := do
  validateIdentifier query.productId "product_id"
  validateIdentifier query.deviceId "device_id"
  let keys ← normalizeSeriesKeys query.keys
  let range ← parseSeriesRange parse query.startTime query.endTime
  keys.mapM fun key => seriesAnswer (reads key) (query.filter range key)

section Stride

-- What the proofs need of the stride, for any number of rows that `i64` can count with room to
-- spare.
theorem seriesStride_spec {n : Nat} (h : (n : Int) < 2 ^ 63 - 1 - 999) :
    ∃ stride : Nat, seriesStride n = stride ∧ 1 ≤ stride ∧ n ≤ 1000 * stride ∧
      (stride = 1 ∨ 1000 * stride < n + 1000) := by
  refine ⟨max ((n + 999) / 1000) 1, ?_, by omega, by omega, by omega⟩
  have hsum : wrapI64 ((n : Int) + maxSeriesPoints) = n + 1000 := by
    rw [maxSeriesPoints]
    exact wrapI64_eq ⟨by omega, by omega⟩
  have hpred : wrapI64 ((n : Int) + 1000 - 1) = ((n + 999 : Nat) : Int) := by
    rw [wrapI64_eq ⟨by omega, by omega⟩]
    omega
  have hdiv : ((n + 999 : Nat) : Int).tdiv 1000 = ((n + 999) / 1000 : Nat) := rfl
  rw [seriesStride, hsum, hpred, maxSeriesPoints, hdiv]
  omega

example : seriesStride 1000 = 1 ∧ seriesStride 1001 = 2 ∧ seriesStride 2001 = 3 := by decide

theorem pageCount_le {n stride : Nat} (hstride : 1 ≤ stride) (h : n ≤ 1000 * stride) :
    pageCount n stride ≤ 1000 := by
  rw [pageCount, ← Nat.lt_add_one_iff, Nat.div_lt_iff_lt_mul hstride]
  omega

theorem lt_pageCount_of_dense {n stride : Nat} (hstride : 1 ≤ stride) (h : 1000 * stride < n + 1000)
    (hn : 1000 < n) :
    500 < pageCount n stride := by
  by_contra hle
  have hcover := le_pageCount_mul hstride n
  have hmul := Nat.mul_le_mul_right stride (Nat.not_lt.mp hle)
  omega

end Stride

section Samples

variable {table : HistoryTable} {filter : SeriesFilter}

theorem id_of_select {row : PropertyHistory} {found : MatchedRow}
    (h : filter.select row = some found) : found.id = row.id := by
  unfold SeriesFilter.select at h
  split_ifs at h
  split at h
  · split_ifs at h
    cases h
    rfl
  · cases h

theorem matchedIds_nodup (table : HistoryTable) (filter : SeriesFilter) :
    ((table.matched filter).map (·.id)).Nodup := by
  have hsub : ((table.matched filter).map (·.id)).Sublist (table.rows.map (·.id)) := by
    unfold HistoryTable.matched
    induction table.rows with
    | nil => exact .slnil
    | cons row rows ih =>
        cases hfound : filter.select row with
        | none =>
            rw [List.filterMap_cons_none hfound]
            exact ih.cons _
        | some found =>
            rw [List.filterMap_cons_some hfound, List.map_cons, List.map_cons, id_of_select hfound]
            exact ih.cons_cons _
  exact table.unique.sublist hsub

theorem byTimeThenId_eq : ByTimeThenId = Lex MatchedRow.t fun row next => row.id ≤ next.id := rfl

theorem byTimeThenId_antisymm {row other : MatchedRow} (hrow : row ∈ table.matched filter)
    (hother : other ∈ table.matched filter)
    (h : ByTimeThenId row other) (h' : ByTimeThenId other row) : row = other := by
  rw [byTimeThenId_eq] at h h'
  obtain ⟨hle, hge⟩ := h.tie_of_symm h'
  exact List.inj_on_of_nodup_map (matchedIds_nodup table filter) hrow hother
    (Int.le_antisymm hle hge)

instance : DecidableRel ByTimeThenId := fun _ _ => inferInstanceAs (Decidable (_ ∨ _))

instance : Std.Total ByTimeThenId where
  total row next := by
    rw [byTimeThenId_eq]
    exact Lex.total (Int.le_total row.id next.id)

instance : IsTrans MatchedRow ByTimeThenId where
  trans row next last := by
    rw [byTimeThenId_eq]
    exact Lex.trans Int.le_trans

-- The rows in the order that numbers them.
def HistoryTable.inOrder (table : HistoryTable) (filter : SeriesFilter) : List MatchedRow :=
  (table.matched filter).insertionSort ByTimeThenId

theorem arrange_eq_inOrder (window : OrderBy ByTimeThenId) (table : HistoryTable)
    (filter : SeriesFilter) :
    window.arrange (table.matched filter) = table.inOrder filter :=
  (window.arranges _).unique (fun _ hrow _ hother => byTimeThenId_antisymm hrow hother)
    ⟨List.perm_insertionSort _ _, List.pairwise_insertionSort _ _⟩

theorem inOrder_eq_of_perm {table other : HistoryTable}
    (h : (table.matched filter).Perm (other.matched filter)) :
    table.inOrder filter = other.inOrder filter := by
  apply Arranges.unique (fun _ hrow _ hnext => byTimeThenId_antisymm hrow hnext)
  · exact ⟨List.perm_insertionSort _ _, List.pairwise_insertionSort _ _⟩
  · exact ⟨(List.perm_insertionSort _ _).trans h.symm, List.pairwise_insertionSort _ _⟩

-- The rows that pass the condition on the row number.
theorem map_sampled {stride : Nat} (hstride : 1 ≤ stride) (order : List MatchedRow) :
    (((order.zipIdx 1).filter fun entry => ((entry.2 : Int) - 1).tmod stride = 0).map (·.1)) =
      every stride order := by
  have hcond (number : Nat) :
      (((number + 1 : Nat) : Int) - 1).tmod stride = 0 ↔ number % stride = 0 := by
    rw [Int.natCast_add, Int.natCast_one, Int.add_sub_cancel, ← Int.ofNat_tmod]
    exact Int.natCast_eq_zero
  rw [← numbered_eq_every hstride, numbered, List.zipIdx_succ, List.filter_map, List.map_map]
  simp only [Function.comp_def, hcond]

-- The result of the query: as many entries of the sample as the limit lets through, the earliest
-- ones first.
theorem queryPropertySeriesPoints_eq {stride : Nat} (hstride : 1 ≤ stride)
    (window : OrderBy ByTimeThenId)
    (order : OrderBy ByTime) (table : HistoryTable) (filter : SeriesFilter) :
    ∃ listing : List MatchedRow, listing.Perm (every stride (table.inOrder filter)) ∧
      (listing.Pairwise fun row next => row.t ≤ next.t) ∧
      queryPropertySeriesPoints window order table filter stride maxSeriesPoints =
        .ok ((listing.take 1000).map MatchedRow.point) := by
  let sampled := ((window.arrange (table.matched filter)).zipIdx 1).filter fun entry =>
      ((entry.2 : Int) - 1).tmod stride = 0
  obtain ⟨hperm, hsorted⟩ := order.arranges sampled
  refine ⟨(order.arrange sampled).map (·.1), ?_, ?_, ?_⟩
  · rw [← map_sampled hstride, ← arrange_eq_inOrder window]
    exact hperm.map _
  · exact List.pairwise_map.mpr hsorted
  · have hfetch : Pagination.fetch ⟨maxSeriesPoints, 0⟩ (order.arrange sampled) =
        .ok ((order.arrange sampled).take 1000) := rfl
    rw [queryPropertySeriesPoints, if_neg fun h => absurd h.1 (by omega)]
    change (Pagination.fetch ⟨maxSeriesPoints, 0⟩ (order.arrange sampled) >>= fun entries =>
      .ok (entries.map (·.1.point))) = _
    rw [hfetch, ok_bind, ← List.map_take, List.map_map]
    rfl

end Samples

section Curve

-- The rows behind the points of a view, if no row came in between the two queries.
structure KeepsCurve (table : HistoryTable) (filter : SeriesFilter) (view : PropertySeriesView)
    (returned : List MatchedRow) :
    Prop where
  points : view.points = returned.map MatchedRow.point
  stride_eq : view.stride = seriesStride (table.matched filter).length
  stride_pos : 1 ≤ view.stride
  sampled : returned.Perm (every view.stride.toNat (table.inOrder filter))
  sorted : returned.Pairwise fun row next => row.t ≤ next.t
  length_eq : view.points.length = pageCount (table.matched filter).length view.stride.toNat
  length_le : view.points.length ≤ 1000
  whole_iff : returned.Perm (table.matched filter) ↔ (table.matched filter).length ≤ 1000
  downsampled_iff : view.downsampled = false ↔ (table.matched filter).length ≤ 1000
  dense : 1000 < (table.matched filter).length → 500 < view.points.length

-- The rows behind the points of a view, whatever the second query finds.
structure KeepsOrder (counted queried : HistoryTable) (filter : SeriesFilter)
    (view : PropertySeriesView) (returned omitted : List MatchedRow) : Prop where
  points : view.points = returned.map MatchedRow.point
  stride_eq : view.stride = seriesStride (counted.matched filter).length
  length_le : view.points.length ≤ 1000
  sampled : (returned ++ omitted).Perm (every view.stride.toNat (queried.inOrder filter))
  earliest : ∀ row ∈ returned, ∀ other ∈ omitted, ¬other.t < row.t

variable {filter : SeriesFilter}

-- The listing that the limit cuts, for any rows that the second query finds.
theorem propertySeries_eq (reads : SeriesReads) (filter : SeriesFilter)
    (hcount : ((reads.counted.matched filter).length : Int) < 2 ^ 63 - 1 - 999) :
    ∃ stride : Nat, seriesStride (reads.counted.matched filter).length = stride ∧ 1 ≤ stride ∧
      ∃ listing : List MatchedRow, listing.Perm (every stride (reads.queried.inOrder filter)) ∧
        (listing.Pairwise fun row next => row.t ≤ next.t) ∧
        propertySeries reads filter =
          .ok ⟨filter.key, (reads.counted.matched filter).length, decide ((1 : Int) < stride),
            stride, (listing.take 1000).map MatchedRow.point⟩ := by
  obtain ⟨stride, hstride, hpos, -, -⟩ := seriesStride_spec hcount
  obtain ⟨listing, hperm, hsorted, hpoints⟩ :=
    queryPropertySeriesPoints_eq hpos reads.window reads.order reads.queried filter
  refine ⟨stride, hstride, hpos, listing, hperm, hsorted, ?_⟩
  have htotal : countPropertySeriesPoints reads.counted filter =
      .ok ((reads.counted.matched filter).length : Int) :=
    countRows_ok_iff.mpr ⟨rfl, ⟨by omega, by omega⟩⟩
  rw [propertySeries, htotal, ok_bind]
  dsimp only
  rw [hstride, hpoints]
  rfl

theorem length_inOrder (table : HistoryTable) (filter : SeriesFilter) :
    (table.inOrder filter).length = (table.matched filter).length :=
  (List.perm_insertionSort ByTimeThenId _).length_eq

-- What a view shows for rows that did not change, and for rows that did.
structure KeepsView (reads : SeriesReads) (filter : SeriesFilter) (view : PropertySeriesView) :
    Prop where
  curve : (reads.queried.matched filter).Perm (reads.counted.matched filter) →
    ∃ returned, KeepsCurve reads.counted filter view returned
  order : ∃ returned omitted, KeepsOrder reads.counted reads.queried filter view returned omitted

theorem keepsCurve_of_perm {reads : SeriesReads} {stride : Nat} {listing : List MatchedRow}
    {total : Nat} (htotal : (reads.counted.matched filter).length = total)
    (hbound : (total : Int) < 2 ^ 63 - 1 - 999) (hstride : seriesStride total = stride)
    (hpos : 1 ≤ stride) (hperm : listing.Perm (every stride (reads.queried.inOrder filter)))
    (hsorted : listing.Pairwise fun row next => row.t ≤ next.t)
    (hsame : (reads.queried.matched filter).Perm (reads.counted.matched filter)) :
    KeepsCurve reads.counted filter
      ⟨filter.key, total, decide ((1 : Int) < stride), stride,
        (listing.take 1000).map MatchedRow.point⟩ listing := by
  obtain ⟨stride', hstride', -, hcover, hdense⟩ := seriesStride_spec hbound
  obtain rfl : stride = stride' := Int.ofNat.inj (hstride.symm.trans hstride')
  rw [inOrder_eq_of_perm hsame] at hperm
  have hlength : listing.length = pageCount total stride := by
    rw [hperm.length_eq, length_every hpos, length_inOrder, htotal]
  have hle : listing.length ≤ 1000 := hlength.trans_le (pageCount_le hpos hcover)
  rw [List.take_of_length_le hle]
  subst htotal
  refine ⟨rfl, hstride.symm, Int.ofNat_le.mpr hpos, hperm, hsorted, ?_, ?_, ?_, ?_, ?_⟩
  · rwa [List.length_map, Int.toNat_natCast]
  · rwa [List.length_map]
  · constructor
    · intro hwhole
      exact hwhole.length_eq ▸ hle
    · intro hsmall
      obtain rfl : stride = 1 := by omega
      rw [every_one] at hperm
      exact hperm.trans (List.perm_insertionSort ByTimeThenId _)
  · dsimp only
    rw [decide_eq_false_iff_not]
    omega
  · intro hlarge
    rw [List.length_map, hlength]
    exact lt_pageCount_of_dense hpos (by omega) hlarge

theorem keepsOrder_of_listing {counted table : HistoryTable} {view : PropertySeriesView}
    {stride : Nat} {listing : List MatchedRow}
    (hperm : listing.Perm (every stride (table.inOrder filter)))
    (hsorted : listing.Pairwise fun row next => row.t ≤ next.t) (hstride : view.stride = stride)
    (hcounted : seriesStride (counted.matched filter).length = stride)
    (hpoints : view.points = (listing.take 1000).map MatchedRow.point) :
    KeepsOrder counted table filter view (listing.take 1000) (listing.drop 1000) := by
  refine ⟨hpoints, hstride.trans hcounted.symm, ?_, ?_, ?_⟩
  · rw [hpoints, List.length_map]
    exact List.length_take_le _ _
  · rwa [List.take_append_drop, hstride, Int.toNat_natCast]
  · rw [← List.take_append_drop 1000 listing] at hsorted
    intro row hrow other hother
    exact not_lt.mpr ((List.pairwise_append.mp hsorted).2.2 row hrow other hother)

theorem propertySeries_keepsView {reads : SeriesReads}
    (hbound : ((reads.counted.matched filter).length : Int) < 2 ^ 63 - 1 - 999) :
    ∃ view, propertySeries reads filter = .ok view ∧ view.key = filter.key ∧
      KeepsView reads filter view := by
  obtain ⟨stride, hstride, hpos, listing, hperm, hsorted, hview⟩ :=
    propertySeries_eq reads filter hbound
  refine ⟨_, hview, rfl, ?_, _, _, keepsOrder_of_listing hperm hsorted rfl hstride rfl⟩
  intro hsame
  exact ⟨listing, keepsCurve_of_perm rfl hbound hstride hpos hperm hsorted hsame⟩

end Curve

section Handler

variable {parse : String → Except String OffsetDateTime} {reads : String → SeriesReads}
  {query : PropertySeriesQuery}

theorem mapM_keepsView (filter : String → SeriesFilter) (hkey : ∀ key, (filter key).key = key)
    {keys : List String}
    (hbound : ∀ key ∈ keys, (((reads key).counted.matched (filter key)).length : Int) <
      2 ^ 63 - 1 - 999) :
    ∃ views, (keys.mapM fun key => seriesAnswer (reads key) (filter key)) = .ok views ∧
      views.map (·.key) = keys ∧ ∀ view ∈ views, KeepsView (reads view.key) (filter view.key)
        view := by
  induction keys with
  | nil => exact ⟨[], rfl, rfl, fun view hview => by cases hview⟩
  | cons key keys ih =>
      obtain ⟨view, hview, hviewKey, hkeeps⟩ :=
        propertySeries_keepsView (hbound key List.mem_cons_self)
      obtain ⟨views, hviews, hkeys, hall⟩ :=
        ih fun other hother => hbound other (List.mem_cons_of_mem _ hother)
      have hviewKey := hviewKey.trans (hkey key)
      have hanswer : seriesAnswer (reads key) (filter key) = .ok view :=
        congrArg (Except.mapError fun _ => databaseError) hview
      refine ⟨view :: views, ?_, ?_, ?_⟩
      · rw [List.mapM_cons, hanswer, hviews]
        rfl
      · rw [List.map_cons, hviewKey, hkeys]
      · intro other hother
        rcases List.mem_cons.mp hother with rfl | hother
        · rwa [hviewKey]
        · exact hall other hother

-- A request that passes the checks is answered, with one view for each key.
theorem series_keep_curve {keys : List String} {range : OffsetDateTime × OffsetDateTime}
    (hproduct : validateIdentifier query.productId "product_id" = .ok ())
    (hdevice : validateIdentifier query.deviceId "device_id" = .ok ())
    (hkeys : normalizeSeriesKeys query.keys = .ok keys)
    (hrange : parseSeriesRange parse query.startTime query.endTime = .ok range)
    (hbound : ∀ key ∈ keys, (((reads key).counted.matched (query.filter range key)).length : Int) <
      2 ^ 63 - 1 - 999) :
    ∃ views, getPropertyHistorySeries parse reads query = .ok views ∧ views.map (·.key) = keys ∧
      ∀ view ∈ views, KeepsView (reads view.key) (query.filter range view.key) view := by
  obtain ⟨views, hviews, hmap, hall⟩ := mapM_keepsView (query.filter range) (fun _ => rfl) hbound
  refine ⟨views, ?_, hmap, hall⟩
  rw [getPropertyHistorySeries, hproduct, hdevice, hkeys, hrange]
  exact hviews

end Handler

section Demo

instance : DecidableRel ByTime := fun _ _ => inferInstanceAs (Decidable (_ ≤ _))

instance : Std.Total ByTime where
  total entry next := le_total entry.1.t next.1.t

instance : IsTrans (MatchedRow × Nat) ByTime where
  trans _ _ _ h h' := le_trans h h'

def numberingWindow : OrderBy ByTimeThenId where
  arrange rows := rows.insertionSort ByTimeThenId
  arranges rows := ⟨List.perm_insertionSort _ rows, List.pairwise_insertionSort _ rows⟩

def timeOrder : OrderBy ByTime where
  arrange entries := entries.insertionSort ByTime
  arranges entries := ⟨List.perm_insertionSort _ entries, List.pairwise_insertionSort _ entries⟩

-- A report each second, and a last one without a time of its own.
def demoReport (n : Nat) : PropertyHistory :=
  ⟨n, "p", "d", .object [("temp", .number (.posInt 20))], if n < 1500 then some (5 + n) else none,
    some 6⟩

def demoHistory : HistoryTable where
  rows := (List.range 1501).map demoReport
  unique := by
    rw [List.map_map]
    exact List.nodup_range.map fun _ _ h => Int.ofNat.inj h

def demoSeries : PropertySeriesQuery := ⟨"p", "d", ["temp", "temp"], "0", "2000"⟩

def demoRange : String → Except String OffsetDateTime
  | "0" => .ok 0
  | "2000" => .ok 2000
  | text => .error text

def demoReads : SeriesReads := ⟨demoHistory, demoHistory, numberingWindow, timeOrder⟩

theorem length_demo : (demoHistory.matched (demoSeries.filter (0, 2000) "temp")).length = 1501 := by
  decide +kernel

-- Every second report is shown.
theorem demo_series_kept :
    ∃ views, getPropertyHistorySeries demoRange (fun _ => demoReads) demoSeries = .ok views ∧
    views.map (·.key) = ["temp"] ∧ ∀ view ∈ views,
      KeepsView demoReads (demoSeries.filter (0, 2000) view.key) view ∧
      view.downsampled = true ∧ view.stride = 2 ∧ view.points.length = 751 := by
  have hbound : ∀ key ∈ ["temp"],
      ((demoHistory.matched (demoSeries.filter (0, 2000) key)).length : Int) <
      2 ^ 63 - 1 - 999 := by
    intro key hkey
    rw [List.mem_singleton.mp hkey, length_demo]
    decide
  obtain ⟨views, hviews, hkeys, hall⟩ :=
    @series_keep_curve demoRange (fun _ => demoReads) demoSeries ["temp"]
    (0, 2000) (by decide +kernel) (by decide +kernel) (by decide +kernel) (by decide +kernel) hbound
  refine ⟨views, hviews, hkeys, fun view hview => ⟨hall view hview, ?_⟩⟩
  have hkey : view.key = "temp" := by
    have hmem := List.mem_map_of_mem (f := (·.key)) hview
    rw [hkeys] at hmem
    exact List.mem_singleton.mp hmem
  obtain ⟨returned, hcurve⟩ := (hall view hview).curve (.refl _)
  rw [hkey] at hcurve
  have hlength : (demoReads.counted.matched (demoSeries.filter (0, 2000) "temp")).length = 1501 :=
    length_demo
  have hstride : view.stride = 2 := by
    rw [hcurve.stride_eq, hlength]
    decide
  refine ⟨?_, hstride, ?_⟩
  · rw [← Bool.not_eq_false, hcurve.downsampled_iff, hlength]
    decide
  · rw [hcurve.length_eq, hlength, hstride]
    decide

end Demo

end RmqttThings.Queries
