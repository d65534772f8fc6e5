import RmqttThings.Factory.ChangeLog
import Mathlib.Data.List.Chain

namespace RmqttThings.Factory

open Effects.Transactions
open Effects.RowLock (Move)

section Orders

variable {α : Type} {time : α → Int}

-- `ORDER BY time DESC`: rows of one time may come in any order.
structure Descending (time : α → Int) (rows listing : List α) : Prop where
  perm : listing.Perm rows
  sorted : listing.Pairwise fun row next => time next ≤ time row

theorem descending_reverse {rows : List α}
    (h : rows.Pairwise fun row next => time row ≤ time next) :
    Descending time rows rows.reverse :=
  ⟨List.reverse_perm rows, List.pairwise_reverse.mpr h⟩

theorem descending_eq_of_strict {rows listing : List α}
    (h : rows.Pairwise fun row next => time row < time next)
    (hlisting : Descending time rows listing) : listing = rows.reverse := by
  have hnodup : (rows.map time).Nodup := by
    rw [List.Nodup, List.pairwise_map]
    exact h.imp fun hlt => Int.ne_of_lt hlt
  have hreverse := descending_reverse (h.imp fun hlt => Int.le_of_lt hlt)
  refine List.Perm.eq_of_pairwise ?_ hlisting.sorted hreverse.sorted
    (hlisting.perm.trans hreverse.perm.symm)
  intro row other hrow hother hle hge
  exact List.inj_on_of_nodup_map hnodup (hlisting.perm.mem_iff.mp hrow) (List.mem_reverse.mp hother)
    (Int.le_antisymm hge hle)

-- Where the order is forced, no two rows have one time.
theorem strict_of_forced {rows : List α} (hnodup : rows.Nodup)
    (hsorted : rows.Pairwise fun row next => time row ≤ time next)
    (hforced : ∀ other : List α, other.Perm rows →
      (other.Pairwise fun row next => time row ≤ time next) → other = rows) :
    rows.Pairwise fun row next => time row < time next := by
  induction rows with
  | nil => exact .nil
  | cons first rows ih =>
      rw [List.nodup_cons] at hnodup
      rw [List.pairwise_cons] at hsorted
      have hrest : rows.Pairwise fun row next => time row < time next := by
        refine ih hnodup.2 hsorted.2 ?_
        intro other hperm hother
        have hcons := hforced (first :: other) (hperm.cons first)
          (List.pairwise_cons.mpr ⟨fun row hrow => hsorted.1 row (hperm.mem_iff.mp hrow), hother⟩)
        exact (List.cons.inj hcons).2
      refine List.pairwise_cons.mpr ⟨?_, hrest⟩
      cases rows with
      | nil => simp
      | cons second rows =>
          have hne : time first ≠ time second := by
            intro he
            -- the two could also come the other way round
            have hsecond := List.pairwise_cons.mp hsorted.2
            have hswap := hforced (second :: first :: rows) (.swap first second rows) (by
              refine List.pairwise_cons.mpr ⟨?_, List.pairwise_cons.mpr ⟨?_, hsecond.2⟩⟩
              · intro row hrow
                rcases List.mem_cons.mp hrow with rfl | hrow
                · exact Int.le_of_eq he.symm
                · exact hsecond.1 row hrow
              · exact fun row hrow => hsorted.1 row (List.mem_cons_of_mem _ hrow))
            exact hnodup.1 (by simp [(List.cons.inj hswap).1])
          have hle : time first ≤ time second := hsorted.1 second (by simp)
          have hlt : time first < time second := by omega
          intro row hrow
          rcases List.mem_cons.mp hrow with rfl | hrow
          · exact hlt
          · exact Int.lt_trans hlt ((List.pairwise_cons.mp hrest).1 row hrow)

theorem forced_iff {rows : List α} (hnodup : rows.Nodup)
    (hsorted : rows.Pairwise fun row next => time row ≤ time next) :
    (∀ listing, Descending time rows listing → listing = rows.reverse) ↔
      rows.Pairwise fun row next => time row < time next := by
  refine ⟨fun h => strict_of_forced hnodup hsorted ?_, fun h listing => descending_eq_of_strict h⟩
  intro other hperm hother
  have hreverse := h other.reverse ⟨(List.reverse_perm other).trans hperm,
      List.pairwise_reverse.mpr hother⟩
  exact List.reverse_injective hreverse

end Orders

-- The rows of one page and the count, from what the database has ordered.
def queryChangeLog {α : Type} (listing : List α) (page pageSize : Nat) : List α × Nat :=
  let page := max page 1
  let pageSize := max pageSize 1
  ((listing.drop ((page - 1) * pageSize)).take pageSize, listing.length)

theorem queryChangeLog_injective {α : Type} {listing other : List α}
    (hlength : listing.length = other.length)
    (h : ∀ page pageSize, queryChangeLog listing page pageSize =
      queryChangeLog other page pageSize) :
    listing = other := by
  have hpage := congrArg Prod.fst (h 1 listing.length)
  simp only [queryChangeLog, Nat.max_self, Nat.sub_self, Nat.zero_mul, List.drop_zero] at hpage
  rwa [List.take_of_length_le (Nat.le_max_left ..),
    List.take_of_length_le (hlength ▸ Nat.le_max_left ..)] at hpage

-- The rows of the log of a serial number in the order in which the overwrites have happened,
-- each with its place in it, as the serial id of a row tells it.
def Tables.overwrites (t : Tables) (sn : String) : List (ChangeLogRow × Nat) := (t.logOf sn).zipIdx

-- The listing goes back in time, whatever order it takes for rows of one time.
structure TrueHistory (hash : String → Int) (encode : OffsetDateTime → Json) (sn : String)
    (db : Db Heap LockKey (Call × OffsetDateTime) Phase) : Prop where
  listed : ∀ listing, Descending (·.1.createdAt) (db.committed.tables.overwrites sn) listing →
    ∀ page pageSize, queryChangeLog listing page pageSize =
      queryChangeLog (db.committed.tables.overwrites sn).reverse page pageSize
  linked : ∀ listing, Descending (·.1.createdAt) (db.committed.tables.overwrites sn) listing →
    listing.IsChain fun row next => row.1.before = next.1.after
  updated : ((upserts hash sn db).map fun request => (content encode request).updatedAt).Pairwise
    (· ≤ ·)

-- The first upsert of a serial number writes no log.
def StartsInOrder (starts : List OffsetDateTime) : Prop :=
  starts.Pairwise (· ≤ ·) ∧ starts.tail.Pairwise (· < ·)

section Listings

variable {hash : String → Int} {encode : OffsetDateTime → Json} {sn : String}
  {db : Db Heap LockKey (Call × OffsetDateTime) Phase}

theorem content_updatedAt (request : Call × OffsetDateTime) :
    (content encode request).updatedAt = request.2 := by
  obtain ⟨call, now⟩ := request
  cases call <;> rfl

theorem overwrites_nodup (t : Tables) : (t.overwrites sn).Nodup := by
  have hplaces : ((t.overwrites sn).map Prod.snd).Nodup := by
    rw [Tables.overwrites, List.zipIdx_map_snd]
    exact List.nodup_range'
  exact hplaces.of_map

-- The times of the log are the starts of the overwrites.
theorem overwrites_pairwise (R : OffsetDateTime → OffsetDateTime → Prop)
    (hlog : db.committed.tables.logOf sn = chain encode sn none (upserts hash sn db)) :
    ((db.committed.tables.overwrites sn).Pairwise fun row next =>
      R row.1.createdAt next.1.createdAt) ↔
      ((upserts hash sn db).map (·.2)).tail.Pairwise R := by
  have htimes : (db.committed.tables.overwrites sn).map (fun row => row.1.createdAt) =
      ((upserts hash sn db).map (·.2)).tail := by
    rw [← (chain_none encode sn (upserts hash sn db)).2.2.1, ← hlog]
    calc (db.committed.tables.overwrites sn).map (fun row => row.1.createdAt)
        = ((db.committed.tables.overwrites sn).map Prod.fst).map (·.createdAt) := by
          rw [List.map_map]; rfl
      _ = (db.committed.tables.logOf sn).map (·.createdAt) := by
        rw [Tables.overwrites, List.zipIdx_map_fst]
  rw [← htimes, List.pairwise_map]

theorem overwrites_linked
    (hlog : db.committed.tables.logOf sn = chain encode sn none (upserts hash sn db)) :
    (db.committed.tables.overwrites sn).reverse.IsChain fun row next => row.1.before =
      next.1.after := by
  have hlinked := (chain_none encode sn (upserts hash sn db)).2.2.2
  rw [← hlog, ← List.zipIdx_map_fst 0 (db.committed.tables.logOf sn), List.isChain_map] at hlinked
  rw [List.isChain_reverse]
  exact hlinked.imp fun _ _ he => he.symm

theorem trueHistory_iff
    (hlog : db.committed.tables.logOf sn = chain encode sn none (upserts hash sn db)) :
    TrueHistory hash encode sn db ↔ StartsInOrder ((upserts hash sn db).map (·.2)) := by
  have hupdated : ((upserts hash sn db).map fun request => (content encode request).updatedAt) =
      (upserts hash sn db).map (·.2) :=
        List.map_congr_left fun request _ => content_updatedAt request
  have hsorted : ((upserts hash sn db).map (·.2)).Pairwise (· ≤ ·) →
      (db.committed.tables.overwrites sn).Pairwise fun row next => row.1.createdAt ≤
        next.1.createdAt := by
    intro h
    exact (overwrites_pairwise (· ≤ ·) hlog).mpr (h.sublist (List.tail_sublist _))
  constructor
  · intro h
    have hstarts := h.updated
    rw [hupdated] at hstarts
    refine ⟨hstarts, (overwrites_pairwise (· < ·) hlog).mp ?_⟩
    rw [← forced_iff (overwrites_nodup db.committed.tables) (hsorted hstarts)]
    intro listing hlisting
    exact queryChangeLog_injective (by simp [hlisting.perm.length_eq]) (h.listed listing hlisting)
  · intro h
    have hstrict := (overwrites_pairwise (· < ·) hlog).mpr h.2
    have hforced := (forced_iff (overwrites_nodup db.committed.tables) (hsorted h.1)).mpr hstrict
    refine ⟨?_, ?_, hupdated ▸ h.1⟩
    · intro listing hlisting page pageSize
      rw [hforced listing hlisting]
    · intro listing hlisting
      rw [hforced listing hlisting]
      exact overwrites_linked hlog

end Listings

theorem listing_shows_history_iff (hash : String → Int) (encode : OffsetDateTime → Json)
    (sn : String) (space : Namespace) (heap : Heap)
    (hcurrent : (heap.history encode sn).current space = none) (hlog : heap.tables.logOf sn = [])
    (moves : List (Move (Call × OffsetDateTime)))
    (hspace : ∀ tx request, .begin tx request ∈ moves → concerns sn request = true →
      Namespace.of request.1 = some space) :
    TrueHistory hash encode sn (run (code hash encode) moves (Db.start heap)) ↔
      StartsInOrder ((upserts hash sn (run (code hash encode) moves (Db.start heap))).map
        (·.2)) := by
  have hspace' : ∀ tx t, (run (code hash encode) moves (Db.start heap)).txs tx = some t →
      concerns sn t.request = true → Namespace.of t.request.1 = some space :=
    request_run (by simp [Db.start]) hspace
  exact trueHistory_iff (log_run hcurrent hlog rfl hspace').2

theorem camera_listing_iff :
    TrueHistory (fun _ => 0) encodeEarly "cam-1"
        (run (code (fun _ => 0) encodeEarly) cameraMoves (Db.start Heap.empty)) ↔
      StartsInOrder ((upserts (fun _ => 0) "cam-1"
        (run (code (fun _ => 0) encodeEarly) cameraMoves (Db.start Heap.empty))).map (·.2)) := by
  refine listing_shows_history_iff _ encodeEarly "cam-1" .component Heap.empty rfl rfl
    cameraMoves ?_
  intro tx request hmem _
  simp only [cameraMoves, List.mem_cons, Move.begin.injEq, reduceCtorEq, List.not_mem_nil,
    or_false] at hmem
  obtain ⟨-, rfl⟩ | ⟨-, rfl⟩ := hmem
  · rfl
  · rfl

-- The second transaction starts before the third, and gets the lock after it.
def overtakenMoves : List (Move (Call × OffsetDateTime)) :=
  [.begin 0 (.component ⟨"cam-1", "camera", .null, .array []⟩, 1000), .step 0, .step 0,
    .step 0, .step 0,
   .begin 1 (.component ⟨"cam-1", "lidar", .null, .array []⟩, 2000),
   .begin 2 (.component ⟨"cam-1", "radar", .null, .array []⟩, 3000),
   .step 2, .step 1, .step 2, .step 2, .step 2, .step 2, .step 1, .step 1, .step 1,
     .step 1, .step 1]

def cameraSnapshot (componentType : String) (updatedAt : OffsetDateTime) : Json :=
  ComponentRow.snapshot encodeEarly ⟨componentType, .null, .array [], updatedAt, 0⟩

-- The listing is out of order, and the row goes back in time.
theorem overtaken_history_untrue :
    ¬ TrueHistory (fun _ => 0) encodeEarly "cam-1"
        (run (code (fun _ => 0) encodeEarly) overtakenMoves (Db.start Heap.empty)) ∧
      ((upserts (fun _ => 0) "cam-1"
        (run (code (fun _ => 0) encodeEarly) overtakenMoves (Db.start Heap.empty))).map
          fun request =>
          (content encodeEarly request).updatedAt) = [1000, 3000, 2000] := by
  refine ⟨?_, rfl⟩
  intro h
  have hrows : (run (code (fun _ => 0) encodeEarly) overtakenMoves
      (Db.start Heap.empty)).committed.tables.overwrites "cam-1" =
        [(⟨"cam-1", cameraSnapshot "camera" 1000, cameraSnapshot "radar" 3000, "factory", 3000⟩, 0),
         (⟨"cam-1", cameraSnapshot "radar" 3000, cameraSnapshot "lidar" 2000, "factory", 2000⟩,
           1)] := rfl
  have hlinked := h.linked
  rw [hrows] at hlinked
  have hchain := hlinked _ ⟨.refl _, by simp⟩
  simp [cameraSnapshot, ComponentRow.snapshot] at hchain

end RmqttThings.Factory
