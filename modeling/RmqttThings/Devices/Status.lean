import RmqttThings.Commands.Handlers
import Mathlib.Data.List.MinMax
import Mathlib.Data.List.TakeWhile

namespace RmqttThings.Devices

open Commands (DeviceConnectRequest resolveDeviceIdentity)
open Api (ApiError)

inductive ConnectionStatus where
  | offline
  | online
  deriving DecidableEq

structure ConnectRequest extends DeviceConnectRequest where
  ipaddress : String
  connectedAt : Int

structure DisconnectRequest where
  clientId : Option String
  productId : String
  deviceId : String
  username : String
  ipaddress : Option String
  disconnectedAt : Int
  reason : String

-- A row of `device_status`.
structure DeviceStatus where
  productId : String
  deviceId : String
  status : ConnectionStatus
  ipAddress : Option String
  lastOnlineAt : Option OffsetDateTime
  lastOfflineAt : Option OffsetDateTime
  createdAt : OffsetDateTime
  updatedAt : OffsetDateTime

-- A row of `device_status_history`.
structure StatusHistory where
  productId : String
  deviceId : String
  status : ConnectionStatus
  ipAddress : Option String
  reason : Option String
  connectedAt : Option OffsetDateTime
  disconnectedAt : Option OffsetDateTime

structure StatusTables where
  rows : String × String → Option DeviceStatus
  history : List StatusHistory

def unixTimestampMsThreshold : Int := 9999999999

-- Milliseconds are cut off to seconds. `from_unix_timestamp` panics outside the years
-- from -9999 to 9999.
def timestampToDatetime (ts : Int) : Option OffsetDateTime :=
  let seconds := if ts > unixTimestampMsThreshold then ts.tdiv 1000 else ts
  if -377705116800 ≤ seconds ∧ seconds ≤ 253402300799 then some (seconds * nanosPerSecond) else none

-- `str::rsplit_once`.
def rsplitOnce (separator : Char) (text : String) : Option (String × String) :=
  match text.toList.reverse.span (· != separator) with
  | (_, []) => none
  | (after, _ :: before) => some (String.ofList before.reverse, String.ofList after.reverse)

-- A panic gives `none`: nothing has been committed then.
def upsertDeviceStatusConnect (req : ConnectRequest) (key : String × String) (now : OffsetDateTime)
    (t : StatusTables) :
    Option StatusTables := do
  let connectedAt ← timestampToDatetime req.connectedAt
  let (ip, _) ← rsplitOnce ':' req.ipaddress
  let row : DeviceStatus := match t.rows key with
    | none => ⟨key.1, key.2, .online, some ip, some connectedAt, none, now, now⟩
    | some row =>
        { row with
          status := .online, ipAddress := some ip, lastOnlineAt := some connectedAt
          updatedAt := now }
  some ⟨Function.update t.rows key (some row),
    t.history ++ [⟨key.1, key.2, .online, some req.ipaddress, none, some connectedAt, none⟩]⟩

-- An `UPDATE`: where there is no row, there is none afterwards.
def updateDeviceStatusDisconnect (req : DisconnectRequest) (key : String × String)
    (now : OffsetDateTime) (t : StatusTables) : Option StatusTables := do
  let disconnectedAt ← timestampToDatetime req.disconnectedAt
  let row : Option DeviceStatus := (t.rows key).map fun row =>
    { row with status := .offline, lastOfflineAt := some disconnectedAt, updatedAt := now }
  some ⟨Function.update t.rows key row,
    t.history ++ [⟨key.1, key.2, .offline, req.ipaddress, some req.reason, none,
      some disconnectedAt⟩]⟩

inductive StatusRequest where
  | connect (req : ConnectRequest)
  | disconnect (req : DisconnectRequest)

namespace StatusRequest

def identity : StatusRequest → Except ApiError (String × String)
  | connect req => resolveDeviceIdentity req.toDeviceConnectRequest
  | disconnect req =>
      resolveDeviceIdentity ⟨req.clientId, req.productId, req.deviceId, some req.username⟩

def store (now : OffsetDateTime) (key : String × String) (t : StatusTables) :
    StatusRequest → Option StatusTables
  | connect req => upsertDeviceStatusConnect req key now t
  | disconnect req => updateDeviceStatusDisconnect req key now t

end StatusRequest

-- A request as it is processed: with the server's clock, and the error of its transaction, if any.
structure Delivery where
  request : StatusRequest
  now : OffsetDateTime
  fault : Option String

-- What `device_connect` and `device_disconnect` do to the tables.
def process (t : StatusTables) (delivery : Delivery) : StatusTables :=
  match delivery.request.identity with
  | .error _ => t
  | .ok key =>
      match delivery.fault with
      | some _ => t
      | none => (delivery.request.store delivery.now key t).getD t

-- A broker event that has been stored: its kind, the broker's timestamp and the stored instant.
structure StatusEvent where
  connect : Bool
  time : Int
  instant : OffsetDateTime

def StatusRequest.event : StatusRequest → Option StatusEvent
  | connect req =>
      (timestampToDatetime req.connectedAt).bind fun instant =>
        (rsplitOnce ':' req.ipaddress).map fun _ => ⟨true, req.connectedAt, instant⟩
  | disconnect req =>
      (timestampToDatetime req.disconnectedAt).map fun instant => ⟨false, req.disconnectedAt,
        instant⟩

-- A request that fails stores no event.
def Delivery.event (delivery : Delivery) : Option StatusEvent :=
  match delivery.fault with
  | some _ => none
  | none => delivery.request.event

-- The columns that the events decide.
structure Connection where
  status : ConnectionStatus
  lastOnlineAt : Option OffsetDateTime
  lastOfflineAt : Option OffsetDateTime

def DeviceStatus.connection (row : DeviceStatus) : Connection :=
  ⟨row.status, row.lastOnlineAt, row.lastOfflineAt⟩

def StatusEvent.apply (row : Option Connection) (event : StatusEvent) : Option Connection :=
  if event.connect then some ⟨.online, some event.instant, row.bind (·.lastOfflineAt)⟩
  else row.map fun row => ⟨.offline, row.lastOnlineAt, some event.instant⟩

section Rows

variable {t : StatusTables} {key : String × String} {now : OffsetDateTime}

theorem store_rows (request : StatusRequest) :
    ((request.store now key t).getD t |>.rows key).map DeviceStatus.connection =
      request.event.elim ((t.rows key).map DeviceStatus.connection)
        (StatusEvent.apply ((t.rows key).map DeviceStatus.connection)) := by
  cases request with
  | connect req =>
      simp only [StatusRequest.store, upsertDeviceStatusConnect, StatusRequest.event]
      cases timestampToDatetime req.connectedAt with
      | none => rfl
      | some instant =>
          cases rsplitOnce ':' req.ipaddress with
          | none => rfl
          | some ip => cases hrow : t.rows key <;> simp [StatusEvent.apply, DeviceStatus.connection]
  | disconnect req =>
      simp only [StatusRequest.store, updateDeviceStatusDisconnect, StatusRequest.event]
      cases timestampToDatetime req.disconnectedAt with
      | none => rfl
      | some instant =>
          cases hrow : t.rows key <;> simp [StatusEvent.apply, DeviceStatus.connection]

theorem process_rows {delivery : Delivery} (h : delivery.request.identity = .ok key) :
    ((process t delivery).rows key).map DeviceStatus.connection =
      delivery.event.elim ((t.rows key).map DeviceStatus.connection)
        (StatusEvent.apply ((t.rows key).map DeviceStatus.connection)) := by
  simp only [process, h, Delivery.event]
  cases delivery.fault with
  | some error => rfl
  | none => exact store_rows delivery.request

theorem foldl_process_rows {deliveries : List Delivery} (h : ∀ delivery ∈ deliveries,
    delivery.request.identity = .ok key)
    (t : StatusTables) :
    ((deliveries.foldl process t).rows key).map DeviceStatus.connection =
      (deliveries.filterMap Delivery.event).foldl StatusEvent.apply
        ((t.rows key).map DeviceStatus.connection) := by
  induction deliveries generalizing t with
  | nil => rfl
  | cons delivery deliveries ih =>
      have hrest := ih (fun other hother => h other (List.mem_cons_of_mem _ hother))
          (process t delivery)
      rw [List.foldl_cons, hrest, process_rows (h delivery List.mem_cons_self), List.filterMap_cons]
      cases delivery.event <;> rfl

end Rows

section Newest

def connects (events : List StatusEvent) : List StatusEvent := events.filter (·.connect)

def disconnects (events : List StatusEvent) : List StatusEvent :=
  events.filter fun event => !event.connect

-- The disconnects that find a row.
def heard (events : List StatusEvent) : List StatusEvent :=
  disconnects (events.dropWhile fun event => !event.connect)

-- The order of the integers is named: without it the instance depends on the imports.
def newest (events : List StatusEvent) : Option StatusEvent :=
  @List.argmax _ _ Int.instLinearOrder.toPartialOrder.toPreorder Int.decLt (·.time) events

theorem connects_eq_nil_iff (events : List StatusEvent) :
    connects events = [] ↔ (events.dropWhile fun event => !event.connect) = [] := by
  rw [connects, List.filter_eq_nil_iff, List.dropWhile_eq_nil_iff]
  simp

theorem heard_concat (events : List StatusEvent) (event : StatusEvent) :
    heard (events ++ [event]) =
      if connects events = [] then [] else heard events ++ disconnects [event] := by
  rw [heard, List.dropWhile_append]
  by_cases hnone : connects events = []
  · rw [if_pos hnone, if_pos (List.isEmpty_iff.mpr ((connects_eq_nil_iff events).mp hnone))]
    cases hconnect : event.connect <;> simp [disconnects, hconnect]
  · rw [if_neg hnone,
      if_neg fun h => hnone ((connects_eq_nil_iff events).mpr (List.isEmpty_iff.mp h)), disconnects,
      List.filter_append]
    rfl

def kindOf (event : StatusEvent) : ConnectionStatus := if event.connect then .online else .offline

-- What the events leave behind, by their order alone.
theorem foldl_apply (events : List StatusEvent) :
    events.foldl StatusEvent.apply none =
      if connects events = [] then none
      else events.getLast?.map fun last =>
        ⟨kindOf last, (connects events).getLast?.map (·.instant),
          (heard events).getLast?.map (·.instant)⟩ := by
  induction events using List.reverseRecOn with
  | nil => rfl
  | append_singleton events event ih =>
      rw [List.foldl_append, List.foldl_cons, List.foldl_nil, ih, heard_concat]
      by_cases hnone : connects events = []
      · rw [if_pos hnone, if_pos hnone]
        have hconnects : connects (events ++ [event]) = connects [event] := by
          rw [connects, List.filter_append, ← connects, hnone, List.nil_append, connects]
        rw [hconnects]
        cases hconnect : event.connect <;> simp [StatusEvent.apply, connects, hconnect, kindOf]
      · obtain ⟨last, hlast⟩ : ∃ last, events.getLast? = some last := by
          cases hevents : events.getLast? with
          | none =>
              rw [List.getLast?_eq_none_iff] at hevents
              exact absurd (by rw [hevents]; rfl) hnone
          | some last => exact ⟨last, rfl⟩
        have hconnects : connects (events ++ [event]) = connects events ++ connects [event] :=
          List.filter_append ..
        rw [if_neg hnone, if_neg hnone, hlast, hconnects]
        cases hconnect : event.connect with
        | true => simp [StatusEvent.apply, connects, disconnects, hconnect, kindOf]
        | false =>
            have hfound : connects events ++ connects [event] ≠ [] := by simp [hnone]
            rw [if_neg hfound]
            simp [StatusEvent.apply, connects, disconnects, hconnect, kindOf]

-- The row shows the newest broker event, and the newest one of each kind.
def FollowsNewest (events : List StatusEvent) (row : Option DeviceStatus) : Prop :=
  ∃ found, row = some found ∧ (found.status = .online ↔ (newest events).map (·.connect) =
    some true) ∧ found.lastOnlineAt = (newest (connects events)).map (·.instant) ∧
    found.lastOfflineAt = (newest (disconnects events)).map (·.instant)

-- The last event that was processed is of the kind of the newest one, the last connect and
-- the last disconnect carry the newest instants of their kinds, and a disconnect, if there
-- is one, came after a connect.
structure ProcessedInOrder (events : List StatusEvent) : Prop where
  connected : connects events ≠ []
  kind : events.getLast?.map (·.connect) = (newest events).map (·.connect)
  online : (connects events).getLast?.map (·.instant) = (newest (connects events)).map (·.instant)
  offline : (heard events).getLast?.map (·.instant) = (newest (disconnects events)).map (·.instant)

theorem newest_isSome {events : List StatusEvent} (h : events ≠ []) :
    ∃ event, newest events = some event := by
  cases hnewest : newest events with
  | none => exact absurd (List.argmax_eq_none.mp hnewest) h
  | some event => exact ⟨event, rfl⟩

theorem followsNewest_iff {events : List StatusEvent} {row : Option DeviceStatus}
    (hrow : row.map DeviceStatus.connection = events.foldl StatusEvent.apply none) :
    FollowsNewest events row ↔ ProcessedInOrder events := by
  rw [foldl_apply] at hrow
  by_cases hnone : connects events = []
  · rw [if_pos hnone, Option.map_eq_none_iff] at hrow
    constructor
    · rintro ⟨found, hfound, -⟩
      simp [hrow] at hfound
    · exact fun h => absurd hnone h.connected
  · have hevents : events ≠ [] := by
      rintro rfl
      exact hnone rfl
    obtain ⟨last, hlast⟩ : ∃ last, events.getLast? = some last := by
      rw [List.getLast?_eq_some_getLast hevents]
      exact ⟨_, rfl⟩
    obtain ⟨greatest, hgreatest⟩ := newest_isSome hevents
    rw [if_neg hnone, hlast, Option.map_some, Option.map_eq_some_iff] at hrow
    obtain ⟨found, rfl, hfound⟩ := hrow
    simp only [DeviceStatus.connection, Connection.mk.injEq] at hfound
    obtain ⟨hstatus, honline, hoffline⟩ := hfound
    have hkind : (found.status = .online ↔ (newest events).map (·.connect) = some true) ↔
        events.getLast?.map (·.connect) = (newest events).map (·.connect) := by
      rw [hstatus, hlast, hgreatest, kindOf]
      cases hl : last.connect <;> cases hg : greatest.connect <;> simp [hl, hg]
    constructor
    · rintro ⟨other, hother, hnewest, honline', hoffline'⟩
      rw [Option.some.injEq] at hother
      subst hother
      exact ⟨hnone, hkind.mp hnewest, honline ▸ honline', hoffline ▸ hoffline'⟩
    · intro h
      exact ⟨found, rfl, hkind.mpr h.kind, honline.trans h.online, hoffline.trans h.offline⟩

end Newest

-- For every set of requests of a device that has no row yet, and every order of them.
theorem status_follows_newest_iff (productId deviceId : String) (deliveries : List Delivery)
    (t : StatusTables)
    (hdevice : ∀ delivery ∈ deliveries, delivery.request.identity = .ok (productId, deviceId))
    (hnew : t.rows (productId, deviceId) = none) :
    FollowsNewest (deliveries.filterMap Delivery.event)
      ((deliveries.foldl process t).rows (productId, deviceId)) ↔
      ProcessedInOrder (deliveries.filterMap Delivery.event) := by
  apply followsNewest_iff
  rw [foldl_process_rows hdevice, hnew, Option.map_none]

section Example

def connectAt (seconds : Int) : Delivery :=
  ⟨.connect ⟨⟨some "d", "", "", some "p"⟩, "127.0.0.1:63602", seconds⟩, 0, none⟩

def disconnectAt (seconds : Int) : Delivery :=
  ⟨.disconnect ⟨some "d", "", "", "p", some "127.0.0.1:63602", seconds, "closed"⟩, 0, none⟩

def noStatus : StatusTables := ⟨fun _ => none, []⟩

-- A session that ends, and a second one.
theorem reconnect_follows_newest :
    FollowsNewest ([connectAt 1760000000, disconnectAt 1760000100, connectAt 1760000200].filterMap
      Delivery.event)
      (([connectAt 1760000000, disconnectAt 1760000100, connectAt 1760000200].foldl process
        noStatus).rows ("p", "d")) := by
  refine (status_follows_newest_iff "p" "d" _ noStatus ?_ rfl).mpr ⟨?_, ?_, ?_, ?_⟩
  · simp only [List.forall_mem_cons, List.not_mem_nil, false_imp_iff, implies_true, and_true]
    exact ⟨rfl, rfl, rfl⟩
  all_goals decide +kernel

-- The disconnect of the first session is processed after the connect of the second one.
theorem late_disconnect_hides_connect :
    ¬FollowsNewest ([connectAt 1760000000, connectAt 1760000200, disconnectAt 1760000100].filterMap
      Delivery.event)
      (([connectAt 1760000000, connectAt 1760000200, disconnectAt 1760000100].foldl process
        noStatus).rows ("p", "d")) := by
  intro h
  obtain ⟨-, hkind, -, -⟩ := (followsNewest_iff rfl).mp h
  exact absurd hkind (by decide +kernel)

end Example

end RmqttThings.Devices
