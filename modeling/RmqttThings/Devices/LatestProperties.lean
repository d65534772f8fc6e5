import RmqttThings.Commands.OfflineShadow
import RmqttThings.Effects.Transactions

namespace RmqttThings.Devices

open Effects.Transactions
open Effects.RowLock (Move)
open Commands (PropertyLatest latestRow reportedMap reported_latestRow)
open Shadow (stamped stampedMap applyCommand)

-- A property report that `property_post` has taken in: the timestamp is that of its arrival.
structure PropertyReport where
  productId : String
  deviceId : String
  properties : JsonMap
  timestamp : OffsetDateTime

-- A row of `property_history`.
structure PropertyHistory where
  productId : String
  deviceId : String
  properties : Json
  reportedTime : OffsetDateTime

-- `property_latest` has the product and the device as its primary key.
structure PropertyTables where
  latest : String × String → Option PropertyLatest
  history : List PropertyHistory

inductive ReportPhase where
  | arrived
  | validated
  | upserted
  | recorded

namespace PropertyReport

def key (report : PropertyReport) : String × String := (report.productId, report.deviceId)

-- What the upsert of a report makes of the row. `rfc3339` is the formatter of the `time`
-- crate: a report whose instant it cannot format fails.
def write (rfc3339 : OffsetDateTime → String) (old : Option PropertyLatest)
    (report : PropertyReport) :
    Option PropertyLatest :=
  some (latestRow report.productId report.deviceId report.properties (rfc3339 report.timestamp)
    report.timestamp old)

end PropertyReport

namespace PropertyTables

variable (rfc3339 : OffsetDateTime → String) (report : PropertyReport) (t : PropertyTables)

def upsertLatest : PropertyTables :=
  { t with latest :=
    Function.update t.latest report.key (report.write rfc3339 (t.latest report.key)) }

def insertHistory : PropertyTables :=
  { t with history := t.history ++
      [⟨report.productId, report.deviceId, report.properties.toJson, report.timestamp⟩] }

end PropertyTables

-- The lookup of the schema and the validation come first and write nothing; a report that is
-- rejected there fails. The upsert locks the row, or the key if there is no row yet.
def propertyPost (rfc3339 : OffsetDateTime → String) :
    Code PropertyTables (String × String) PropertyReport ReportPhase where
  first := fun _ => .arrived
  next := fun report phase _ =>
    match phase with
    | .arrived => .statement [] id .validated
    | .validated => .statement [report.key] (PropertyTables.upsertLatest rfc3339 report) .upserted
    | .upserted => .statement [] (PropertyTables.insertHistory report) .recorded
    | .recorded => .commit

def isOf (key : String × String) (report : PropertyReport) : Bool := report.key == key

-- The reports of a device that have committed, in the order of their commits: the row is locked
-- from the upsert to the commit.
def acceptedReports (key : String × String)
    (db : Db PropertyTables (String × String) PropertyReport ReportPhase) :
    List PropertyReport :=
  commits (isOf key) db.txs (db.order key)

section Guarding

variable {rfc3339 : OffsetDateTime → String} {key : String × String}

theorem latest_upsertLatest (report : PropertyReport) (t : PropertyTables) :
    (t.upsertLatest rfc3339 report).latest key =
      if report.key = key then report.write rfc3339 (t.latest key) else t.latest key := by
  simp only [PropertyTables.upsertLatest]
  split_ifs with he
  · rw [he, Function.update_self]
  · rw [Function.update_of_ne (Ne.symm he)]

-- A report that has the lock has written its row.
def HasWritten (rfc3339 : OffsetDateTime → String) (report : PropertyReport) (phase : ReportPhase)
    (before own : Option PropertyLatest) : Prop :=
  (phase = .upserted ∨ phase = .recorded) ∧ own = report.write rfc3339 before

theorem latest_guarded (rfc3339 : OffsetDateTime → String) (key : String × String) :
    Guards (propertyPost rfc3339) key (·.latest key) (isOf key) (fun old report =>
      report.write rfc3339 old)
      (fun _ phase => phase = .arrived ∨ phase = .validated) (HasWritten rfc3339) where
  foreign := by
    intro report phase view locks change phase' hforeign hnext t
    have hne : report.key ≠ key := by simpa [isOf] using hforeign
    cases phase <;> simp only [propertyPost, Action.statement.injEq, reduceCtorEq] at hnext
    case arrived => rw [← hnext.2.1, id]
    case validated => rw [← hnext.2.1, latest_upsertLatest, if_neg hne]
    case upserted => rw [← hnext.2.1, PropertyTables.insertHistory]
  first := fun _ => .inl rfl
  waiting := by
    intro report phase view locks change phase' hof hphase hnext
    have he : report.key = key := by simpa [isOf] using hof
    rcases hphase with rfl | rfl
    · simp only [propertyPost, Action.statement.injEq] at hnext
      obtain ⟨rfl, rfl, rfl⟩ := hnext
      rw [if_neg (by simp)]
      exact ⟨.inr rfl, fun _ => rfl⟩
    · simp only [propertyPost, Action.statement.injEq] at hnext
      obtain ⟨rfl, rfl, rfl⟩ := hnext
      rw [if_pos (by simp [he])]
      refine ⟨_, ⟨.inl rfl, rfl⟩, ?_⟩
      intro t ht
      rw [latest_upsertLatest, if_pos he, ht]
  waits := by
    rintro report phase view - (rfl | rfl) <;> simp [propertyPost]
  owning := by
    rintro report phase view before locks change phase' - ⟨rfl | rfl, hown⟩ hnext
    · simp only [propertyPost, Action.statement.injEq] at hnext
      obtain ⟨rfl, rfl, rfl⟩ := hnext
      exact ⟨_, ⟨.inr rfl, hown⟩, fun t ht => ht⟩
    · simp [propertyPost] at hnext
  commits := by
    rintro report phase view before - ⟨-, hown⟩ -
    exact hown

theorem latest_run (rfc3339 : OffsetDateTime → String) (key : String × String)
    (moves : List (Move PropertyReport)) (t : PropertyTables) :
    let db := run (propertyPost rfc3339) moves (Db.start t)
    db.committed.latest key =
      (acceptedReports key db).foldl (fun old report => report.write rfc3339 old) (t.latest key) :=
  (serial_run (latest_guarded rfc3339 key) moves t).committed

end Guarding

-- The column holds an object, as every report leaves it.
def HoldsObject (row : Option PropertyLatest) : Prop :=
  ∀ found, row = some found → ∃ properties : JsonMap, found.properties = properties.toJson

-- For every key the value of a newest report with the key, in the form in which it is stored.
structure NewestWins (rfc3339 : OffsetDateTime → String) (reports : List PropertyReport)
    (first last : Option PropertyLatest) : Prop where
  reported : ∀ key, (∃ report ∈ reports, (report.properties.get key).isSome) →
    ∃ newest ∈ reports, ∃ value, newest.properties.get key = some value ∧
      (∀ other ∈ reports, (other.properties.get key).isSome → other.timestamp ≤ newest.timestamp) ∧
      (reportedMap last).get key = some (stamped (rfc3339 newest.timestamp) (key, value)).2
  unreported : ∀ key, (∀ report ∈ reports, report.properties.get key = none) →
    (reportedMap last).get key = (reportedMap first).get key

-- Along a run the time of the row only goes forward.
def TimeGoesForward (rfc3339 : OffsetDateTime → String) (key : String × String)
    (moves : List (Move PropertyReport)) (t : PropertyTables) : Prop :=
  ∀ front middle back, moves = front ++ middle ++ back → ∀ old new,
    (run (propertyPost rfc3339) front (Db.start t)).committed.latest key = some old →
    (run (propertyPost rfc3339) (front ++ middle) (Db.start t)).committed.latest key = some new →
    old.updatedTime ≤ new.updatedTime

-- The instants of the row, one after the other.
def instants (first : Option PropertyLatest) (reports : List PropertyReport) :
    List OffsetDateTime :=
  (first.map (·.updatedTime)).toList ++ reports.map (·.timestamp)

section Writes

variable {rfc3339 : OffsetDateTime → String} {first : Option PropertyLatest}

theorem holdsObject_write (h : HoldsObject first) (report : PropertyReport) :
    HoldsObject (report.write rfc3339 first) := by
  intro found hfound
  simp only [PropertyReport.write, Option.some.injEq] at hfound
  subst hfound
  cases first with
  | none => exact ⟨stampedMap (rfc3339 report.timestamp) report.properties, rfl⟩
  | some row =>
      obtain ⟨properties, hproperties⟩ := h row rfl
      refine ⟨applyCommand properties (stampedMap (rfc3339 report.timestamp) report.properties), ?_⟩
      simp only [latestRow, Option.map_some, Option.elim_some, hproperties]
      rfl

theorem holdsObject_writes (h : HoldsObject first) (reports : List PropertyReport) :
    HoldsObject (reports.foldl (fun old report => report.write rfc3339 old) first) := by
  induction reports generalizing first with
  | nil => exact h
  | cons report reports ih => exact ih (holdsObject_write h report)

theorem get_writes_concat (h : HoldsObject first) (reports : List PropertyReport)
    (report : PropertyReport) (key : String) :
    (reportedMap ((reports ++ [report]).foldl (fun old report => report.write rfc3339 old)
      first)).get key =
      ((report.properties.get key).map fun value =>
        (stamped (rfc3339 report.timestamp) (key, value)).2).or
        ((reportedMap (reports.foldl (fun old report => report.write rfc3339 old) first)).get
          key) := by
  rw [List.foldl_append]
  exact reported_latestRow (holdsObject_writes h reports) report.productId report.deviceId
    report.properties (rfc3339 report.timestamp) report.timestamp key

-- The last report with a key is the newest one when the reports come in order.
theorem newestWins_of_ordered (h : HoldsObject first) {reports : List PropertyReport}
    (hordered : reports.Pairwise fun report next => report.timestamp ≤ next.timestamp) :
    NewestWins rfc3339 reports first (reports.foldl (fun old report => report.write rfc3339 old)
      first) := by
  induction reports using List.reverseRecOn with
  | nil => exact ⟨by simp, by simp⟩
  | append_singleton reports report ih =>
      rw [List.pairwise_append] at hordered
      obtain ⟨hfront, -, hlast⟩ := hordered
      obtain ⟨hreported, hunreported⟩ := ih hfront
      refine ⟨?_, ?_⟩
      · intro key hkey
        rw [get_writes_concat h]
        cases hvalue : report.properties.get key with
        | some value =>
            refine ⟨report, by simp, value, hvalue, ?_, rfl⟩
            intro other hother _
            rcases List.mem_append.mp hother with hother | hother
            · exact hlast other hother report (by simp)
            · rw [List.mem_singleton] at hother
              exact hother ▸ Int.le_refl _
        | none =>
            have hbefore : ∃ report ∈ reports, (report.properties.get key).isSome := by
              obtain ⟨other, hother, hsome⟩ := hkey
              rcases List.mem_append.mp hother with hother | hother
              · exact ⟨other, hother, hsome⟩
              · rw [List.mem_singleton] at hother
                simp [hother, hvalue] at hsome
            obtain ⟨newest, hnewest, value, hget, hmax, hstored⟩ := hreported key hbefore
            refine ⟨newest, List.mem_append_left _ hnewest, value, hget, ?_, hstored⟩
            intro other hother hsome
            rcases List.mem_append.mp hother with hother | hother
            · exact hmax other hother hsome
            · rw [List.mem_singleton] at hother
              simp [hother, hvalue] at hsome
      · intro key hkey
        rw [get_writes_concat h, hkey report (by simp)]
        exact hunreported key fun other hother => hkey other (List.mem_append_left _ hother)

-- The row has the instant of the last write.
theorem updatedTime_writes (first : Option PropertyLatest) (reports : List PropertyReport) :
    (reports.foldl (fun old report => report.write rfc3339 old) first).map (·.updatedTime) =
      (instants first reports).getLast? := by
  rcases List.eq_nil_or_concat reports with rfl | ⟨reports, report, rfl⟩
  · cases first <;> simp [instants]
  · simp [instants, List.foldl_append, PropertyReport.write, latestRow]

end Writes

section Runs

variable {rfc3339 : OffsetDateTime → String} {key : String × String} {t : PropertyTables}

theorem updatedTime_run (rfc3339 : OffsetDateTime → String) (key : String × String)
    (t : PropertyTables) (moves : List (Move PropertyReport)) :
    ((run (propertyPost rfc3339) moves (Db.start t)).committed.latest key).map (·.updatedTime) =
      (instants (t.latest key)
        (acceptedReports key (run (propertyPost rfc3339) moves (Db.start t)))).getLast? := by
  rw [latest_run rfc3339 key moves t, updatedTime_writes]

theorem le_last {times : List OffsetDateTime} (h : times.Pairwise (· ≤ ·))
    {time last : OffsetDateTime}
    (hmem : time ∈ times) (hlast : times.getLast? = some last) : time ≤ last := by
  obtain ⟨front, rfl⟩ := List.getLast?_eq_some_iff.mp hlast
  rcases List.mem_append.mp hmem with hmem | hmem
  · exact (List.pairwise_append.mp h).2.2 time hmem last (by simp)
  · rw [List.mem_singleton] at hmem
    exact hmem ▸ Int.le_refl _

-- The instants of a state are the first ones of every later state.
theorem instants_run (front middle : List (Move PropertyReport)) :
    instants (t.latest key)
      (acceptedReports key (run (propertyPost rfc3339) front (Db.start t))) <+:
      instants (t.latest key)
        (acceptedReports key (run (propertyPost rfc3339) (front ++ middle) (Db.start t))) := by
  have hgrow : acceptedReports key (run (propertyPost rfc3339) front (Db.start t)) <+:
      acceptedReports key (run (propertyPost rfc3339) (front ++ middle) (Db.start t)) := by
    rw [run_append]
    exact commits_run (isOf key) key middle (locks_run front t key)
  exact (List.prefix_append_right_inj _).mpr (hgrow.map _)

theorem acceptedReports_concat (moves : List (Move PropertyReport)) (move : Move PropertyReport) :
    acceptedReports key (run (propertyPost rfc3339) (moves ++ [move]) (Db.start t)) =
        acceptedReports key (run (propertyPost rfc3339) moves (Db.start t)) ∨
      ∃ report, acceptedReports key (run (propertyPost rfc3339) (moves ++ [move]) (Db.start t)) =
        acceptedReports key (run (propertyPost rfc3339) moves (Db.start t)) ++ [report] := by
  have hlocks : Locks (run (propertyPost rfc3339) moves (Db.start t)) key := locks_run moves t key
  rw [run_append]
  exact hlocks.commits_moved (moved_move _ move)

theorem timeGoesForward_of_ordered {moves : List (Move PropertyReport)}
    (h : (instants (t.latest key)
      (acceptedReports key (run (propertyPost rfc3339) moves (Db.start t)))).Pairwise (· ≤ ·)) :
    TimeGoesForward rfc3339 key moves t := by
  rintro front middle back rfl old new hold hnew
  have hfront := updatedTime_run rfc3339 key t front
  have hmiddle := updatedTime_run rfc3339 key t (front ++ middle)
  rw [hold, Option.map_some] at hfront
  rw [hnew, Option.map_some] at hmiddle
  refine le_last (h.sublist (instants_run (front ++ middle) back).sublist) ?_ hmiddle.symm
  exact (instants_run front middle).subset (List.mem_of_getLast? hfront.symm)

theorem ordered_of_timeGoesForward {moves : List (Move PropertyReport)}
    (h : TimeGoesForward rfc3339 key moves t) :
    (instants (t.latest key)
      (acceptedReports key (run (propertyPost rfc3339) moves (Db.start t)))).Pairwise (· ≤ ·) := by
  induction moves using List.reverseRecOn with
  | nil => cases hfirst : t.latest key <;> simp [instants, acceptedReports, commits, run, Db.start]
  | append_singleton moves move ih =>
      have hbefore := ih fun front middle back he => h front middle (back ++ [move]) (by simp [he])
      rcases acceptedReports_concat moves move with hsame | ⟨report, hgrown⟩
      · rw [hsame]
        exact hbefore
      · rw [hgrown, instants, List.map_append, ← List.append_assoc, List.pairwise_append]
        refine ⟨hbefore, List.pairwise_singleton .., ?_⟩
        intro time hmem last hlast
        rw [List.map_singleton, List.mem_singleton] at hlast
        subst hlast
        have hnow := updatedTime_run rfc3339 key t (moves ++ [move])
        have hthen := updatedTime_run rfc3339 key t moves
        rw [hgrown, instants, List.map_append, ← List.append_assoc, List.map_singleton,
          List.getLast?_concat, Option.map_eq_some_iff] at hnow
        obtain ⟨new, hnew, htime⟩ := hnow
        -- the time of the row before, which all the earlier ones are not after
        obtain ⟨before, hlast⟩ : ∃ before, (instants (t.latest key)
            (acceptedReports key (run (propertyPost rfc3339) moves (Db.start t)))).getLast? =
              some before := by
          exact ⟨_, List.getLast?_eq_some_getLast (List.ne_nil_of_mem hmem)⟩
        rw [hlast, Option.map_eq_some_iff] at hthen
        obtain ⟨old, hold, rfl⟩ := hthen
        have hforward := h moves [move] [] (by simp) old new hold hnew
        rw [htime] at hforward
        exact Int.le_trans (le_last hbefore hmem hlast) hforward

end Runs

-- The table of latest values follows the timestamps of the reports of a device.
structure LatestByTime (rfc3339 : OffsetDateTime → String) (key : String × String)
    (moves : List (Move PropertyReport)) (t : PropertyTables) : Prop where
  newest : NewestWins rfc3339 (acceptedReports key (run (propertyPost rfc3339) moves (Db.start t)))
    (t.latest key) ((run (propertyPost rfc3339) moves (Db.start t)).committed.latest key)
  forward : TimeGoesForward rfc3339 key moves t

theorem latest_by_time_iff (rfc3339 : OffsetDateTime → String) (key : String × String)
    (moves : List (Move PropertyReport)) (t : PropertyTables) (h : HoldsObject (t.latest key)) :
    LatestByTime rfc3339 key moves t ↔
      (instants (t.latest key)
        (acceptedReports key (run (propertyPost rfc3339) moves (Db.start t)))).Pairwise
          (· ≤ ·) := by
  constructor
  · exact fun hlatest => ordered_of_timeGoesForward hlatest.forward
  · intro hordered
    refine ⟨?_, timeGoesForward_of_ordered hordered⟩
    rw [latest_run rfc3339 key moves t]
    exact newestWins_of_ordered h (List.pairwise_map.mp (List.pairwise_append.mp hordered).2.1)

def temperatureIs (value : UInt64) : JsonMap := ⟨[("temperature", .number (.posInt value))], rfl⟩

-- The texts of two instants of the first second after the epoch.
def rfc3339Early (instant : OffsetDateTime) : String :=
  if instant = 100000000 then "1970-01-01T00:00:00.1Z" else "1970-01-01T00:00:00.2Z"

def noReports : PropertyTables := ⟨fun _ => none, []⟩

-- Two reports that commit in the order of their arrival.
def inOrderMoves : List (Move PropertyReport) :=
  [.begin 0 ⟨"p", "d", temperatureIs 20, 100000000⟩, .begin 1 ⟨"p", "d", temperatureIs 21,
    200000000⟩,
   .step 0, .step 0, .step 0, .step 0, .step 1, .step 1, .step 1, .step 1]

theorem in_order_latest_iff :
    LatestByTime rfc3339Early ("p", "d") inOrderMoves noReports ↔
      (instants (noReports.latest ("p", "d"))
        (acceptedReports ("p", "d") (run (propertyPost rfc3339Early) inOrderMoves
          (Db.start noReports)))).Pairwise (· ≤ ·) :=
  latest_by_time_iff rfc3339Early ("p", "d") inOrderMoves noReports
    (by simp [HoldsObject, noReports])

-- The first report is held up by its validation, and commits after the second one.
def heldUpMoves : List (Move PropertyReport) :=
  [.begin 0 ⟨"p", "d", temperatureIs 20, 100000000⟩, .begin 1 ⟨"p", "d", temperatureIs 21,
    200000000⟩,
   .step 1, .step 1, .step 1, .step 1, .step 0, .step 0, .step 0, .step 0]

-- The older value stays, and the time of the row goes back.
theorem held_up_report_wins :
    ¬ LatestByTime rfc3339Early ("p", "d") heldUpMoves noReports ∧
      (reportedMap ((run (propertyPost rfc3339Early) heldUpMoves
        (Db.start noReports)).committed.latest ("p", "d"))).get "temperature" =
          some (stamped (rfc3339Early 100000000) ("temperature", .number (.posInt 20))).2 := by
  have hstored : (reportedMap
      ((run (propertyPost rfc3339Early) heldUpMoves (Db.start noReports)).committed.latest
      ("p", "d"))).get "temperature" =
        some (stamped (rfc3339Early 100000000) ("temperature", .number (.posInt 20))).2 := rfl
  have hreports : acceptedReports ("p", "d") (run (propertyPost rfc3339Early) heldUpMoves
      (Db.start noReports)) =
      [⟨"p", "d", temperatureIs 21, 200000000⟩, ⟨"p", "d", temperatureIs 20, 100000000⟩] := rfl
  refine ⟨?_, hstored⟩
  intro h
  have hreported := h.newest.reported "temperature"
  rw [hstored, hreports] at hreported
  obtain ⟨newest, hmem, value, hvalue, hmax, hlatest⟩ := hreported ⟨_, List.mem_cons_self, rfl⟩
  have hnewer := hmax _ List.mem_cons_self rfl
  simp only [List.mem_cons, List.not_mem_nil, or_false] at hmem
  rcases hmem with rfl | rfl
  · simp [stamped, rfc3339Early] at hlatest
  · simp at hnewer

end RmqttThings.Devices
