import RmqttThings.Devices.Status

namespace RmqttThings.Devices

open Api (ApiError)

-- The two handlers up to the end of their transaction. `beginFault` is the error
-- that the pool gives instead of a connection. An error is answered; `none` is a panic.
def webhook (beginFault : Option String) (now : OffsetDateTime) (t : StatusTables)
    (request : StatusRequest) :
    Option (Except ApiError StatusTables) :=
  match request.identity with
  | .error error => some (.error error)
  | .ok key =>
      match beginFault with
      | some _ => some (.error Commands.databaseError)
      | none => (request.store now key t).map .ok

-- What `process` does to the tables is what the handler does.
theorem process_eq (t : StatusTables) (delivery : Delivery) :
    process t delivery =
      ((webhook delivery.fault delivery.now t delivery.request).bind Except.toOption).getD t := by
  unfold process webhook
  cases delivery.request.identity with
  | error error => rfl
  | ok key =>
      cases delivery.fault with
      | some error => rfl
      | none =>
          dsimp only
          cases delivery.request.store delivery.now key t <;> rfl

-- Seconds of the years from -9999 to 9999, or milliseconds of the years up to 9999.
def InYears (ts : Int) : Prop := -377705116800 ≤ ts ∧ ts ≤ 253402300799999

-- The timestamp is a date, and the address of a connect has a port.
def Storable : StatusRequest → Prop
  | .connect req => InYears req.connectedAt ∧ ':' ∈ req.ipaddress.toList
  | .disconnect req => InYears req.disconnectedAt

-- A request that has been understood is answered, whatever the database does.
def NeverPanics (request : StatusRequest) : Prop :=
  ∀ beginFault now t, (webhook beginFault now t request).isSome = true

theorem timestampToDatetime_isSome (ts : Int) :
    (timestampToDatetime ts).isSome = true ↔ InYears ts := by
  unfold timestampToDatetime InYears unixTimestampMsThreshold
  by_cases hms : ts > 9999999999
  · have hdiv : ts.tdiv 1000 = ts / 1000 := Int.tdiv_eq_ediv_of_nonneg (by omega)
    simp only [if_pos hms, hdiv, Option.isSome_ite]
    omega
  · simp only [if_neg hms, Option.isSome_ite]
    omega

theorem rsplitOnce_isSome (separator : Char) (text : String) :
    (rsplitOnce separator text).isSome = true ↔ separator ∈ text.toList := by
  have hspan : text.toList.reverse.span (· != separator) =
      (text.toList.reverse.takeWhile (· != separator),
        text.toList.reverse.dropWhile (· != separator)) :=
    List.span_eq_takeWhile_dropWhile _ _
  have hmem : separator ∈ text.toList ↔ text.toList.reverse.dropWhile (· != separator) ≠ [] := by
    rw [ne_eq, List.dropWhile_eq_nil_iff]
    simp
  rw [hmem, rsplitOnce, hspan]
  cases text.toList.reverse.dropWhile (· != separator) <;> simp

theorem store_isSome (request : StatusRequest) (now : OffsetDateTime) (key : String × String)
    (t : StatusTables) :
    (request.store now key t).isSome = true ↔ Storable request := by
  cases request with
  | connect req =>
      simp only [Storable, ← timestampToDatetime_isSome, ← rsplitOnce_isSome, StatusRequest.store,
        upsertDeviceStatusConnect]
      cases timestampToDatetime req.connectedAt with
      | none => simp
      | some instant => cases rsplitOnce ':' req.ipaddress <;> simp
  | disconnect req =>
      simp only [Storable, ← timestampToDatetime_isSome, StatusRequest.store,
        updateDeviceStatusDisconnect]
      cases timestampToDatetime req.disconnectedAt <;> simp

-- Without an error of the pool, a request that cannot be stored ends in a panic.
theorem webhook_of_not_storable {request : StatusRequest} {key : String × String}
    (hidentity : request.identity = .ok key)
    (h : ¬Storable request) (now : OffsetDateTime) (t : StatusTables) :
    webhook none now t request = none := by
  have hnone : request.store now key t = none := by
    rw [← Option.not_isSome_iff_eq_none, store_isSome]
    exact h
  simp only [webhook, hidentity, hnone, Option.map_none]

theorem not_neverPanics {request : StatusRequest} {key : String × String}
    (hidentity : request.identity = .ok key) (h : ¬Storable request) : ¬NeverPanics request := by
  intro hnever
  have hsome := hnever none 0 ⟨fun _ => none, []⟩
  rw [webhook_of_not_storable hidentity h] at hsome
  cases hsome

theorem webhook_never_panics_iff (request : StatusRequest) :
    NeverPanics request ↔ ∀ key, request.identity = .ok key → Storable request := by
  constructor
  · intro h key hidentity
    by_contra hnot
    exact not_neverPanics hidentity hnot h
  · intro h beginFault now t
    unfold webhook
    cases hidentity : request.identity with
    | error error => rfl
    | ok key =>
        cases beginFault with
        | some error => rfl
        | none =>
            simp only [Option.isSome_map]
            exact (store_isSome request now key t).mpr (h key hidentity)

section Example

-- An address without a port.
def portless : StatusRequest := .connect ⟨⟨some "d", "", "", some "p"⟩, "172.17.0.1", 1756261355844⟩

-- The greatest timestamp of the type.
def farFuture : StatusRequest :=
  .disconnect ⟨some "d", "", "", "p", none, 9223372036854775807, "closed"⟩

theorem portless_connect_panics :
    (portless.identity = .ok ("p", "d") ∧ webhook none 0 noStatus portless = none ∧
      ¬NeverPanics portless) ∧
    farFuture.identity = .ok ("p", "d") ∧ webhook none 0 noStatus farFuture = none ∧
      ¬NeverPanics farFuture := by
  have hportless : ¬Storable portless := fun h => absurd h.2 (by decide)
  have hfuture : ¬Storable farFuture := fun h => absurd h.2 (by decide)
  have hidentity : portless.identity = .ok ("p", "d") := rfl
  have hidentity' : farFuture.identity = .ok ("p", "d") := rfl
  exact ⟨⟨hidentity, webhook_of_not_storable hidentity hportless 0 noStatus,
    not_neverPanics hidentity hportless⟩,
    hidentity', webhook_of_not_storable hidentity' hfuture 0 noStatus,
      not_neverPanics hidentity' hfuture⟩

end Example

end RmqttThings.Devices
