import RmqttThings.Effects.RowLock
import RmqttThings.Commands.World

namespace RmqttThings.Commands

open Shadow Effects.RowLock

-- A call of `upsert_property_desired` with the two clocks that it reads: the timestamp of
-- its transaction, and the server's clock after the merge.
structure UpsertRequest where
  productId : String
  deviceId : String
  desiredPatch : JsonMap
  currentTimestamp : OffsetDateTime
  now : OffsetDateTime

-- The rows of the statements of `upsert_property_desired`.
def upsertPropertyDesired : Upsert (String × String) PropertyDesired UpsertRequest where
  key := fun req => (req.productId, req.deviceId)
  placeholder := fun req => ⟨req.productId, req.deviceId, JsonMap.empty.toJson,
    req.currentTimestamp⟩
  rewrite := fun req existing =>
    ⟨req.productId, req.deviceId,
      (mergeDesired (objectOrDefault existing.desired) req.desiredPatch).toJson, req.now⟩

-- The desired document of a device.
def document (row : Option PropertyDesired) : JsonMap :=
  (row.map (objectOrDefault ·.desired)).getD .empty

-- No top-level value is null.
def NullFree (doc : Json) : Prop := ∀ key value, doc.get key = some value → value.isNull = false

def StoredNullFree (row : Option PropertyDesired) : Prop :=
  ∀ stored, row = some stored → NullFree stored.desired

-- The committed patches among the transactions.
def patches (txs : Nat → Option (Tx PropertyDesired UpsertRequest)) (order : List Nat) :
    List JsonMap :=
  (commits txs order).map (·.desiredPatch)

@[simp] theorem objectOrDefault_toJson (map : JsonMap) : objectOrDefault map.toJson = map := by
  simp [objectOrDefault]

theorem desired_rewrite (row : Option PropertyDesired) (req : UpsertRequest) :
    (upsertPropertyDesired.rewrite req (row.getD (upsertPropertyDesired.placeholder req))).desired =
      (mergeDesired (document row) req.desiredPatch).toJson := by
  cases row <;> simp [document, upsertPropertyDesired]

theorem document_write (row : Option PropertyDesired) (req : UpsertRequest) :
    document (upsertPropertyDesired.write row req) = mergeDesired (document row)
      req.desiredPatch := by
  rw [Upsert.write, document, Option.map_some, Option.getD_some, desired_rewrite,
    objectOrDefault_toJson]

theorem document_foldl (row : Option PropertyDesired) (reqs : List UpsertRequest) :
    document (reqs.foldl upsertPropertyDesired.write row) =
      (reqs.map (·.desiredPatch)).foldl mergeDesired (document row) := by
  induction reqs generalizing row with
  | nil => rfl
  | cons req reqs ih => rw [List.foldl_cons, ih, document_write, List.map_cons, List.foldl_cons]

theorem nullFree_empty : NullFree JsonMap.empty.toJson := by
  intro key value h
  simp [JsonMap.toJson, JsonMap.empty, Json.get] at h

-- What is not an object counts as an empty one.
theorem nullFree_objectOrDefault {doc : Json} (h : NullFree doc) :
    NullFree (objectOrDefault doc).toJson := by
  cases doc with
  | object fields =>
      by_cases hformed : (Json.object fields).wellFormed = true
      · simpa [objectOrDefault, JsonMap.ofJson, hformed, JsonMap.toJson] using h
      · simpa [objectOrDefault, JsonMap.ofJson, hformed] using nullFree_empty
  | null => exact nullFree_empty
  | bool _ => exact nullFree_empty
  | number _ => exact nullFree_empty
  | string _ => exact nullFree_empty
  | array _ => exact nullFree_empty

theorem nullFree_mergeDesired {current : JsonMap} (h : NullFree current.toJson) (patch : JsonMap) :
    NullFree (mergeDesired current patch).toJson := by
  intro key value hget
  have hmerged : (mergeDesired current patch).get key = some value := hget
  rw [get_mergeDesired] at hmerged
  cases hpatch : patch.get key with
  | none =>
      rw [hpatch, Option.elim_none] at hmerged
      exact h key value hmerged
  | some set =>
      rw [hpatch, Option.elim_some] at hmerged
      split_ifs at hmerged with hnull
      rw [Option.some.injEq] at hmerged
      simpa [← hmerged] using hnull

-- The row that the locked read finds.
theorem nullFree_read {row : Option PropertyDesired} (h : StoredNullFree row)
    (req : UpsertRequest) :
    NullFree (row.getD (upsertPropertyDesired.placeholder req)).desired := by
  cases row with
  | none => exact nullFree_empty
  | some stored => exact h stored rfl

theorem storedNullFree_write {row : Option PropertyDesired} (h : StoredNullFree row)
    (req : UpsertRequest) :
    StoredNullFree (upsertPropertyDesired.write row req) := by
  intro stored hstored
  rw [Upsert.write, Option.some.injEq] at hstored
  rw [← hstored]
  exact nullFree_mergeDesired (nullFree_objectOrDefault (nullFree_read h req)) req.desiredPatch

theorem storedNullFree_foldl {row : Option PropertyDesired} (h : StoredNullFree row)
    (reqs : List UpsertRequest) :
    StoredNullFree (reqs.foldl upsertPropertyDesired.write row) := by
  induction reqs generalizing row with
  | nil => exact h
  | cons req reqs ih => exact ih (storedNullFree_write h req)

-- The committed row and the version that is not committed yet.
theorem nullFree_of_serial {first : Option PropertyDesired}
    {txs : Nat → Option (Tx PropertyDesired UpsertRequest)} {key : String × String}
    {slot : Slot PropertyDesired}
    (h : Serial upsertPropertyDesired first txs key slot) (hfirst : StoredNullFree first) :
    StoredNullFree slot.committed ∧ ∀ tx own, slot.holder = some (tx, own) →
      NullFree own.desired := by
  have hcommitted : StoredNullFree slot.committed := by
    rw [h.history.committed]
    exact storedNullFree_foldl hfirst _
  refine ⟨hcommitted, ?_⟩
  intro tx own hholder
  obtain ⟨t, -, -, hheld⟩ := h.guarded.held tx own hholder
  cases hheld with
  | inserted _ _ hown =>
      rw [hown]
      exact nullFree_empty
  | locked _ _ _ hown =>
      rw [hown]
      exact nullFree_read hcommitted t.request
  | updated _ _ _ hown => exact storedNullFree_write hcommitted t.request own hown.symm

-- Each of the writers that commit counts, once and in the order of the lock, for a device
-- with or without a row, and is answered with the document of its own turn.
theorem no_lost_desired_update (rows : String × String → Option PropertyDesired)
    (moves : List (Move UpsertRequest)) (productId deviceId : String) :
    let db := run upsertPropertyDesired moves rows
    let slot := db.slots (productId, deviceId)
    let first := document (rows (productId, deviceId))
    document slot.committed = (patches db.txs slot.order).foldl mergeDesired first ∧
    slot.order.Nodup ∧
    (∀ tx ∈ slot.order, ∃ t, db.txs tx = some t ∧ upsertPropertyDesired.key t.request =
      (productId, deviceId)) ∧
    (∀ tx req returned, db.txs tx = some ⟨req, .committed returned⟩ →
      upsertPropertyDesired.key req = (productId, deviceId) →
      ∃ front back, slot.order = front ++ tx :: back ∧ returned.desired =
        (mergeDesired ((patches db.txs front).foldl mergeDesired first) req.desiredPatch).toJson) ∧
    (StoredNullFree (rows (productId, deviceId)) → StoredNullFree slot.committed ∧
      ∀ tx own, slot.holder = some (tx, own) → NullFree own.desired) := by
  intro db slot first
  have hserial : Serial upsertPropertyDesired (rows (productId, deviceId)) db.txs (productId,
      deviceId) slot :=
    serial_run upsertPropertyDesired moves rows (productId, deviceId)
  refine ⟨?_, hserial.history.nodup, ?_, ?_, nullFree_of_serial hserial⟩
  · rw [hserial.history.committed, document_foldl]
    rfl
  · intro tx htx
    obtain ⟨t, ht, hkey, -⟩ := hserial.history.past tx htx
    exact ⟨t, ht, hkey⟩
  · intro tx req returned htx hkey
    obtain ⟨front, back, horder, hreturned⟩ := hserial.history.turn_of_committed htx hkey
    refine ⟨front, back, horder, ?_⟩
    rw [Upsert.write, Option.some.injEq] at hreturned
    rw [hreturned, desired_rewrite, patches, ← document_foldl]

-- Two first writers of a device: the second waits for the insert of the first, which it then finds.
def firstWriters : List (Move UpsertRequest) :=
  [.begin 0 ⟨"p", "d", ⟨[("x", .bool true), ("y", .bool true)], rfl⟩, 1, 2⟩,
    .begin 1 ⟨"p", "d", ⟨[("x", .null), ("z", .bool false)], rfl⟩, 1, 3⟩,
    .step 0, .step 1, .step 0, .step 0, .step 0, .step 1, .step 1, .step 1, .step 1]

theorem first_writers_both_count :
    (run upsertPropertyDesired firstWriters fun _ => none).txs 0 =
      some ⟨⟨"p", "d", ⟨[("x", .bool true), ("y", .bool true)], rfl⟩, 1, 2⟩,
        .committed ⟨"p", "d", .object [("x", .bool true), ("y", .bool true)], 2⟩⟩ ∧
    ((run upsertPropertyDesired firstWriters fun _ => none).slots ("p", "d")).order = [0, 1] ∧
    (document ((run upsertPropertyDesired firstWriters fun _ => none).slots ("p",
      "d")).committed).fields =
      [("y", .bool true), ("z", .bool false)] ∧
    StoredNullFree ((run upsertPropertyDesired firstWriters fun _ => none).slots ("p",
      "d")).committed := by
  refine ⟨rfl, rfl, rfl, ?_⟩
  exact ((no_lost_desired_update (fun _ => none) firstWriters "p" "d").2.2.2.2
    (by simp [StoredNullFree])).1

-- The statement of the handlers, which is atomic, is the transaction as a whole.
theorem exec_upsertPropertyDesired (t : Tables) (req : UpsertRequest) :
    let answer := (Sql.upsertPropertyDesired req.productId req.deviceId req.desiredPatch).exec
        req.now t
    let written := upsertPropertyDesired.write (t.propertyDesired (upsertPropertyDesired.key req))
        req
    some answer.1 = written ∧
      answer.2.propertyDesired = Function.update t.propertyDesired (upsertPropertyDesired.key req)
        written := by
  intro answer written
  have hwritten : some answer.1 = written := by
    simp only [answer, written, Sql.exec, Upsert.write, upsertPropertyDesired]
    cases h : t.propertyDesired (req.productId, req.deviceId) <;> simp [Tables.desiredOf, h]
  exact ⟨hwritten, hwritten ▸ rfl⟩

def execUpsert (t : Tables) (req : UpsertRequest) : Tables :=
  ((Sql.upsertPropertyDesired req.productId req.deviceId req.desiredPatch).exec req.now t).2

theorem foldl_execUpsert {key : String × String} {reqs : List UpsertRequest}
    (h : ∀ req ∈ reqs, upsertPropertyDesired.key req = key) (t : Tables) :
    (reqs.foldl execUpsert t).propertyDesired key =
      reqs.foldl upsertPropertyDesired.write (t.propertyDesired key) := by
  induction reqs generalizing t with
  | nil => rfl
  | cons req reqs ih =>
      have hkey := h req (by simp)
      have hrow : (execUpsert t req).propertyDesired key = upsertPropertyDesired.write
          (t.propertyDesired key) req := by
        rw [execUpsert, (exec_upsertPropertyDesired t req).2, hkey, Function.update_self]
      rw [List.foldl_cons, List.foldl_cons, ih fun other hother =>
        h other (List.mem_cons_of_mem _ hother), hrow]

-- The transactions, however they interleave, are the atomic statements in the order of the lock.
theorem transactions_refine_statements (t : Tables) (moves : List (Move UpsertRequest))
    (key : String × String) :
    let db := run upsertPropertyDesired moves t.propertyDesired
    (db.slots key).committed =
      ((commits db.txs (db.slots key).order).foldl execUpsert t).propertyDesired key := by
  intro db
  have hserial := serial_run upsertPropertyDesired moves t.propertyDesired key
  rw [foldl_execUpsert (fun req hreq => hserial.history.key_of_mem_commits hreq)]
  exact hserial.history.committed

end RmqttThings.Commands
