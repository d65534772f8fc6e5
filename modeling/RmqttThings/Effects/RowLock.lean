import Mathlib.Logic.Function.Basic
import Mathlib.Data.List.Nodup

namespace Effects.RowLock

-- The transactions after a move: the one that has moved, and the others.
theorem txs_update_cases {Tx : Type} {txs txs' : Nat → Option Tx} {tx other : Nat} {t' found : Tx}
    (htxs : txs' = Function.update txs tx (some t')) (hfound : txs' other = some found) :
    (other = tx ∧ found = t') ∨ (other ≠ tx ∧ txs other = some found) := by
  rw [htxs] at hfound
  by_cases he : other = tx
  · rw [he, Function.update_self, Option.some.injEq] at hfound
    exact .inl ⟨he, hfound.symm⟩
  · rw [Function.update_of_ne he] at hfound
    exact .inr ⟨he, hfound⟩

-- A transaction that makes sure that its row exists, locks and reads it, and writes it back:
-- an insert that does nothing on a conflict, a select for update, an update and a commit.
structure Upsert (Key Row Req : Type) where
  key : Req → Key
  placeholder : Req → Row
  rewrite : Req → Row → Row

-- The last statement that a transaction has done.
inductive Phase (Row : Type) where
  | begun
  | inserted
  | locked (read : Row)
  | updated (written : Row)
  | committed (returned : Row)
  | rolledBack

namespace Phase

variable {Row : Type}

-- The transaction holds the lock of its row.
def isLocked : Phase Row → Bool
  | locked _ => true
  | updated _ => true
  | _ => false

def isCommitted : Phase Row → Bool
  | committed _ => true
  | _ => false

-- The transaction has been given the lock, or is over.
def isPast : Phase Row → Bool
  | begun => false
  | inserted => false
  | _ => true

def isActive : Phase Row → Bool
  | committed _ => false
  | rolledBack => false
  | _ => true

end Phase

structure Tx (Row Req : Type) where
  request : Req
  phase : Phase Row

-- The state of one key: the committed row, the transaction that has the row to itself with
-- its own uncommitted version of it, and as a ghost the transactions that were given the
-- lock, oldest first.
structure Slot (Row : Type) where
  committed : Option Row
  holder : Option (Nat × Row)
  order : List Nat

namespace Slot

variable {Row : Type}

-- A statement that has to wait for another transaction gives `none`. The insert has to wait
-- for an uncommitted row only; for a locked row it may, and then its move just comes later.
def insertDoNothing (tx : Nat) (row : Row) (slot : Slot Row) : Option (Slot Row) :=
  match slot.committed, slot.holder with
  | some _, _ => some slot
  | none, none => some { slot with holder := some (tx, row) }
  | none, some (other, _) => if other = tx then some slot else none

-- The row as of the moment when the lock is given, if there is one.
def selectForUpdate (tx : Nat) (slot : Slot Row) : Option (Option Row × Slot Row) :=
  match slot.holder, slot.committed with
  | some (other, own), _ =>
      if other = tx then some (some own, { slot with order := slot.order ++ [tx] }) else none
  | none, some row =>
      some (some row, { slot with holder := some (tx, row), order := slot.order ++ [tx] })
  | none, none => some (none, slot)

def update (tx : Nat) (row : Row) (slot : Slot Row) : Option (Option Row × Slot Row) :=
  match slot.holder, slot.committed with
  | some (other, _), _ =>
      if other = tx then some (some row, { slot with holder := some (tx, row) }) else none
  | none, some _ => some (some row, { slot with holder := some (tx, row) })
  | none, none => some (none, slot)

def commit (tx : Nat) (slot : Slot Row) : Slot Row :=
  match slot.holder with
  | some (other, own) =>
      if other = tx then { slot with committed := some own, holder := none } else slot
  | none => slot

-- The uncommitted version is gone, with the row if it was new.
def rollback (tx : Nat) (slot : Slot Row) : Slot Row :=
  match slot.holder with
  | some (other, _) => if other = tx then { slot with holder := none } else slot
  | none => slot

end Slot

structure Db (Key Row Req : Type) where
  slots : Key → Slot Row
  txs : Nat → Option (Tx Row Req)

inductive Move (Req : Type) where
  | begin (tx : Nat) (request : Req)
  | step (tx : Nat)
  | fail (tx : Nat)

section Run

variable {Key Row Req : Type} [DecidableEq Key] (code : Upsert Key Row Req)

-- The next statement of a transaction. A row that is not found ends the transaction.
def next (tx : Nat) (t : Tx Row Req) (slot : Slot Row) : Option (Phase Row × Slot Row) :=
  match t.phase with
  | .begun =>
      (slot.insertDoNothing tx (code.placeholder t.request)).map fun slot => (.inserted, slot)
  | .inserted => (slot.selectForUpdate tx).map fun
      | (some row, slot) => (.locked row, slot)
      | (none, slot) => (.rolledBack, slot.rollback tx)
  | .locked read => (slot.update tx (code.rewrite t.request read)).map fun
      | (some row, slot) => (.updated row, slot)
      | (none, slot) => (.rolledBack, slot.rollback tx)
  | .updated row => some (.committed row, slot.commit tx)
  | .committed _ => none
  | .rolledBack => none

def Db.set (db : Db Key Row Req) (tx : Nat) (request : Req) (phase : Phase Row) (slot : Slot Row) :
    Db Key Row Req where
  slots := Function.update db.slots (code.key request) slot
  txs := Function.update db.txs tx (some ⟨request, phase⟩)

-- Any transaction may begin, do its next statement unless it has to wait, or fail.
def Db.move (db : Db Key Row Req) : Move Req → Db Key Row Req
  | .begin tx request =>
      match db.txs tx with
      | none => db.set code tx request .begun (db.slots (code.key request))
      | some _ => db
  | .step tx =>
      match db.txs tx with
      | none => db
      | some t =>
          match next code tx t (db.slots (code.key t.request)) with
          | none => db
          | some (phase, slot) => db.set code tx t.request phase slot
  | .fail tx =>
      match db.txs tx with
      | none => db
      | some t =>
          if t.phase.isActive then
            db.set code tx t.request .rolledBack ((db.slots (code.key t.request)).rollback tx)
          else db

def Db.start (rows : Key → Option Row) : Db Key Row Req where
  slots := fun key => ⟨rows key, none, []⟩
  txs := fun _ => none

def run (moves : List (Move Req)) (rows : Key → Option Row) : Db Key Row Req :=
  moves.foldl (Db.move code) (Db.start rows)

end Run

section Commits

variable {Key Row Req : Type}

def committedRequest (t : Tx Row Req) :
    Option Req := if t.phase.isCommitted then some t.request else none

-- The requests of the committed ones among the transactions.
def commits (txs : Nat → Option (Tx Row Req)) (order : List Nat) : List Req :=
  order.filterMap fun tx => (txs tx).bind committedRequest

-- The transaction as a whole, when it has the row to itself.
def Upsert.write (code : Upsert Key Row Req) (row : Option Row) (request : Req) : Option Row :=
  some (code.rewrite request (row.getD (code.placeholder request)))

variable {txs : Nat → Option (Tx Row Req)}

theorem commits_append (txs : Nat → Option (Tx Row Req)) (front back : List Nat) :
    commits txs (front ++ back) = commits txs front ++ commits txs back := List.filterMap_append

theorem commits_update_of_notMem {tx : Nat} {order : List Nat} (t : Tx Row Req) (h : tx ∉ order) :
    commits (Function.update txs tx (some t)) order = commits txs order := by
  apply List.filterMap_congr
  intro other hother
  have hne : other ≠ tx := fun he => h (he ▸ hother)
  rw [Function.update_of_ne hne]

-- A change of phase without a commit is not seen.
theorem commits_update {tx : Nat} {t' : Tx Row Req}
    (h : ∀ t, txs tx = some t → t.phase.isCommitted = false)
    (h' : t'.phase.isCommitted = false) (order : List Nat) :
    commits (Function.update txs tx (some t')) order = commits txs order := by
  apply List.filterMap_congr
  intro other _
  by_cases he : other = tx
  · subst he
    cases htx : txs other with
    | none => simp [committedRequest, h']
    | some t => simp [committedRequest, h', h t htx]
  · rw [Function.update_of_ne he]

theorem commits_concat {tx : Nat} {t : Tx Row Req} (htx : txs tx = some t) (order : List Nat) :
    commits txs (order ++ [tx]) = commits txs order ++ (committedRequest t).toList := by
  rw [commits_append]
  cases hc : committedRequest t <;> simp [commits, htx, hc]

end Commits

section Invariant

variable {Key Row Req : Type} (code : Upsert Key Row Req)

-- The committed row of a key is what the committed transactions have made of the first one,
-- each as a whole, in the order of the lock, and each has returned the row of its turn.
structure History (first : Option Row) (txs : Nat → Option (Tx Row Req)) (key : Key)
    (row : Option Row) (order : List Nat) : Prop where
  committed : row = (commits txs order).foldl code.write first
  nodup : order.Nodup
  past : ∀ tx ∈ order, ∃ t, txs tx = some t ∧ code.key t.request = key ∧ t.phase.isPast = true
  complete : ∀ tx t, txs tx = some t → code.key t.request = key → t.phase.isCommitted = true →
    tx ∈ order
  returned : ∀ front tx back t row, order = front ++ tx :: back → txs tx = some t →
    t.phase = .committed row → (commits txs (front ++ [tx])).foldl code.write first = some row

-- What the holder of a row has done, and what its own version of the row is.
inductive Held (slot : Slot Row) (tx : Nat) (t : Tx Row Req) (own : Row) : Prop where
  | inserted : t.phase = .inserted → slot.committed = none → own = code.placeholder t.request →
      Held slot tx t own
  | locked (front : List Nat) : t.phase = .locked own → slot.order = front ++ [tx] →
      own = slot.committed.getD (code.placeholder t.request) → Held slot tx t own
  | updated (front : List Nat) : t.phase = .updated own → slot.order = front ++ [tx] →
      some own = code.write slot.committed t.request → Held slot tx t own

-- A transaction that has the lock is the holder.
structure Guarded (txs : Nat → Option (Tx Row Req)) (key : Key) (slot : Slot Row) : Prop where
  held : ∀ tx own, slot.holder = some (tx, own) →
    ∃ t, txs tx = some t ∧ code.key t.request = key ∧ Held code slot tx t own
  owned : ∀ tx t, txs tx = some t → code.key t.request = key → t.phase.isLocked = true →
    ∃ own, slot.holder = some (tx, own)

structure Serial (first : Option Row) (txs : Nat → Option (Tx Row Req)) (key : Key)
    (slot : Slot Row) : Prop where
  history : History code first txs key slot.committed slot.order
  guarded : Guarded code txs key slot

variable {code} {first row : Option Row} {txs : Nat → Option (Tx Row Req)} {key : Key}
  {order : List Nat} {slot : Slot Row} {tx : Nat} {request : Req} {phase phase' : Phase Row}
  {t' : Tx Row Req}

theorem serial_start (first : Option Row) (key : Key) :
    Serial code first (fun _ => none) key ⟨first, none, []⟩ where
  history := ⟨rfl, List.nodup_nil, by simp, by simp, by simp⟩
  guarded := ⟨by simp, by simp⟩

section Frame

variable (hold : ∀ t, txs tx = some t → code.key t.request ≠ key) (hnew : code.key t'.request ≠ key)
include hold

-- A transaction of another key: the ones of this key are as before.
theorem same_of_key {other : Nat} {t : Tx Row Req} (ht : txs other = some t)
    (hkey : code.key t.request = key) :
    Function.update txs tx (some t') other = some t := by
  have hne : other ≠ tx := by
    rintro rfl
    exact hold t ht hkey
  rw [Function.update_of_ne hne, ht]

include hnew

theorem same_key_iff {other : Nat} {t : Tx Row Req} (hkey : code.key t.request = key) :
    Function.update txs tx (some t') other = some t ↔ txs other = some t := by
  constructor
  · intro ht
    rcases txs_update_cases rfl ht with ⟨rfl, rfl⟩ | ⟨-, ht⟩
    · exact absurd hkey hnew
    · exact ht
  · exact fun ht => same_of_key hold ht hkey

theorem History.frame (h : History code first txs key row order) :
    History code first (Function.update txs tx (some t')) key row order := by
  have hnotin : ∀ part ⊆ order, tx ∉ part := by
    intro part hpart hmem
    obtain ⟨t, ht, hkey, -⟩ := h.past tx (hpart hmem)
    exact hold t ht hkey
  refine ⟨?_, h.nodup, ?_, ?_, ?_⟩
  · rw [commits_update_of_notMem t' (hnotin _ (List.Subset.refl _))]
    exact h.committed
  · intro other hother
    obtain ⟨t, ht, hkey, hpast⟩ := h.past other hother
    exact ⟨t, same_of_key hold ht hkey, hkey, hpast⟩
  · intro other t ht hkey hcommitted
    exact h.complete other t ((same_key_iff hold hnew hkey).mp ht) hkey hcommitted
  · intro front other back t returned horder ht hphase
    obtain ⟨t₀, ht₀, hkey, -⟩ := h.past other (by simp [horder])
    have hpart : front ++ [other] ⊆ order := by simp [horder]
    rw [commits_update_of_notMem t' (hnotin _ hpart)]
    rw [same_of_key hold ht₀ hkey, Option.some.injEq] at ht
    exact h.returned front other back t returned horder (ht ▸ ht₀) hphase

theorem Serial.frame (h : Serial code first txs key slot) :
    Serial code first (Function.update txs tx (some t')) key slot := by
  refine ⟨h.history.frame hold hnew, ?_, ?_⟩
  · intro other own hholder
    obtain ⟨t, ht, hkey, hheld⟩ := h.guarded.held other own hholder
    exact ⟨t, same_of_key hold ht hkey, hkey, hheld⟩
  · intro other t ht hkey hlocked
    exact h.guarded.owned other t ((same_key_iff hold hnew hkey).mp ht) hkey hlocked

end Frame

section Steps

-- A transaction that has not committed and does not commit now.
theorem History.quiet (h : History code first txs key row order)
    (hold : ∀ t, txs tx = some t → t.phase.isCommitted = false)
    (hnew : t'.phase.isCommitted = false)
    (hpast : tx ∈ order → code.key t'.request = key ∧ t'.phase.isPast = true) :
    History code first (Function.update txs tx (some t')) key row order := by
  refine ⟨?_, h.nodup, ?_, ?_, ?_⟩
  · rw [commits_update hold hnew]
    exact h.committed
  · intro other hother
    by_cases he : other = tx
    · subst he
      exact ⟨t', Function.update_self .., hpast hother⟩
    · rw [Function.update_of_ne he]
      exact h.past other hother
  · intro other t ht hkey hcommitted
    rcases txs_update_cases rfl ht with ⟨rfl, rfl⟩ | ⟨-, ht⟩
    · simp [hnew] at hcommitted
    · exact h.complete other t ht hkey hcommitted
  · intro front other back t returned horder ht hphase
    rw [commits_update hold hnew]
    rcases txs_update_cases rfl ht with ⟨rfl, rfl⟩ | ⟨-, ht⟩
    · simp [hphase, Phase.isCommitted] at hnew
    · exact h.returned front other back t returned horder ht hphase

-- A transaction that is given the lock goes to the end of the order.
theorem History.append (h : History code first txs key row order) {t : Tx Row Req}
    (htx : txs tx = some t) (hkey : code.key t.request = key) (hnotin : tx ∉ order)
    (hpast : t.phase.isPast = true)
    (hquiet : t.phase.isCommitted = false) : History code first txs key row (order ++ [tx]) := by
  refine ⟨?_, ?_, ?_, ?_, ?_⟩
  · rw [commits_concat htx, committedRequest, hquiet]
    simpa using h.committed
  · rw [List.nodup_append]
    refine ⟨h.nodup, List.nodup_singleton tx, ?_⟩
    intro other hother last hlast he
    rw [List.mem_singleton] at hlast
    exact hnotin (hlast ▸ he ▸ hother)
  · intro other hother
    rcases List.mem_append.mp hother with hother | hother
    · exact h.past other hother
    · rw [List.mem_singleton] at hother
      exact ⟨t, hother ▸ htx, hkey, hpast⟩
  · intro other t ht hkey hcommitted
    exact List.mem_append_left _ (h.complete other t ht hkey hcommitted)
  · intro front other back t' returned horder ht' hphase
    rcases List.eq_nil_or_concat back with rfl | ⟨back, last, rfl⟩
    · -- the last transaction has not committed
      obtain ⟨-, he⟩ := List.append_inj' horder rfl
      rw [← List.singleton_inj.mp he, htx, Option.some.injEq] at ht'
      simp [ht', hphase, Phase.isCommitted] at hquiet
    · rw [List.concat_eq_append, ← List.cons_append, ← List.append_assoc] at horder
      exact h.returned front other back t' returned (List.append_inj' horder rfl).1 ht' hphase

-- The last one in the order commits its own version of the row.
theorem History.commit (h : History code first txs key row (order ++ [tx])) {t : Tx Row Req}
    (htx : txs tx = some t) (hkey : code.key t.request = key) (hquiet : t.phase.isCommitted = false)
    {own : Row} (hown : some own = code.write row t.request) :
    History code first (Function.update txs tx (some ⟨t.request, .committed own⟩)) key (some own)
      (order ++ [tx]) := by
  have hnotin : tx ∉ order := by
    intro hmem
    exact (List.nodup_append.mp h.nodup).2.2 tx hmem tx (List.mem_singleton_self tx) rfl
  have hlast : (commits (Function.update txs tx (some ⟨t.request, .committed own⟩))
      (order ++ [tx])).foldl code.write first = some own := by
    have hrow := h.committed
    rw [commits_concat htx, committedRequest, hquiet] at hrow
    rw [commits_concat (Function.update_self ..), commits_update_of_notMem _ hnotin,
      committedRequest,
      Phase.isCommitted, if_pos rfl, Option.toList_some, List.foldl_append, List.foldl_cons,
        List.foldl_nil, hown]
    simp [hrow]
  refine ⟨hlast.symm, h.nodup, ?_, ?_, ?_⟩
  · intro other hother
    by_cases he : other = tx
    · subst he
      exact ⟨_, Function.update_self .., hkey, rfl⟩
    · rw [Function.update_of_ne he]
      exact h.past other hother
  · intro other t ht hkey hcommitted
    by_cases he : other = tx
    · simp [he]
    · rw [Function.update_of_ne he] at ht
      exact h.complete other t ht hkey hcommitted
  · intro front other back t' returned horder ht' hphase
    rcases List.eq_nil_or_concat back with rfl | ⟨back, last, rfl⟩
    · obtain ⟨rfl, he⟩ := List.append_inj' horder rfl
      rw [← List.singleton_inj.mp he, Function.update_self, Option.some.injEq] at ht'
      rw [← List.singleton_inj.mp he, hlast]
      simpa [← ht'] using hphase
    · -- an earlier one is as it was
      have horder' := horder
      rw [List.concat_eq_append, ← List.cons_append, ← List.append_assoc] at horder'
      have hfront := (List.append_inj' horder' rfl).1
      have hne : other ≠ tx := by
        rintro rfl
        exact hnotin (by simp [hfront])
      rw [Function.update_of_ne hne] at ht'
      rw [commits_update_of_notMem]
      · exact h.returned front other _ t' returned horder ht' hphase
      · intro hmem
        exact hnotin (hfront ▸ by simpa [or_assoc] using Or.inl hmem)

-- A transaction that neither has nor is given the row.
theorem Guarded.idle (h : Guarded code txs key slot) (hnot : ∀ own, slot.holder ≠ some (tx, own))
    (hlock : t'.phase.isLocked = false) :
    Guarded code (Function.update txs tx (some t')) key slot := by
  constructor
  · intro other own hholder
    have hne : other ≠ tx := by
      rintro rfl
      exact hnot own hholder
    rw [Function.update_of_ne hne]
    exact h.held other own hholder
  · intro other t ht hkey hlocked
    rcases txs_update_cases rfl ht with ⟨rfl, rfl⟩ | ⟨-, ht⟩
    · simp [hlock] at hlocked
    · exact h.owned other t ht hkey hlocked

-- A transaction that has the row, or is given it when nobody has it.
theorem Guarded.turn (h : Guarded code txs key slot) {slot' : Slot Row}
    (hfree : ∀ other own, slot.holder = some (other, own) → other = tx)
    (hheld : ∀ other own, slot'.holder = some (other, own) →
      other = tx ∧ code.key t'.request = key ∧ Held code slot' tx t' own)
    (hlock : t'.phase.isLocked = true → ∃ own, slot'.holder = some (tx, own)) :
    Guarded code (Function.update txs tx (some t')) key slot' := by
  constructor
  · intro other own hholder
    obtain ⟨rfl, hkey, hheld⟩ := hheld other own hholder
    exact ⟨t', Function.update_self .., hkey, hheld⟩
  · intro other t ht hkey hlocked
    rcases txs_update_cases rfl ht with ⟨rfl, rfl⟩ | ⟨he, ht⟩
    · exact hlock hlocked
    · obtain ⟨own, hholder⟩ := h.owned other t ht hkey hlocked
      exact absurd (hfree other own hholder) he

-- What is known of one transaction.
theorem History.notMem (h : History code first txs key row order)
    (htx : txs tx = some ⟨request, phase⟩) (hphase : phase.isPast = false) : tx ∉ order := by
  intro hmem
  obtain ⟨t, ht, -, hpast⟩ := h.past tx hmem
  rw [htx, Option.some.injEq] at ht
  simp [← ht, hphase] at hpast

theorem Guarded.heldBy (h : Guarded code txs key slot) (htx : txs tx = some ⟨request, phase⟩)
    {own : Row}
    (hholder : slot.holder = some (tx, own)) : Held code slot tx ⟨request, phase⟩ own := by
  obtain ⟨t, ht, -, hheld⟩ := h.held tx own hholder
  rw [htx, Option.some.injEq] at ht
  exact ht ▸ hheld

theorem History.key_of_mem_commits (h : History code first txs key row order)
    (hmem : request ∈ commits txs order) :
    code.key request = key := by
  obtain ⟨tx, htx, hrequest⟩ := List.mem_filterMap.mp hmem
  obtain ⟨t, ht, hkey, -⟩ := h.past tx htx
  rw [ht, Option.bind_some, committedRequest] at hrequest
  split_ifs at hrequest
  rw [Option.some.injEq] at hrequest
  exact hrequest ▸ hkey

-- A committed transaction has made its whole change in its turn.
theorem History.turn_of_committed (h : History code first txs key row order) {returned : Row}
    (htx : txs tx = some ⟨request, .committed returned⟩) (hkey : code.key request = key) :
    ∃ front back, order = front ++ tx :: back ∧
      some returned = code.write ((commits txs front).foldl code.write first) request := by
  obtain ⟨front, back, horder⟩ := List.append_of_mem (h.complete tx _ htx hkey rfl)
  refine ⟨front, back, horder, ?_⟩
  have hreturned := h.returned front tx back _ returned horder htx rfl
  rw [commits_concat htx, List.foldl_append] at hreturned
  exact hreturned.symm

theorem quiet_of (htx : txs tx = some ⟨request, phase⟩) (hphase : phase.isCommitted = false) :
    ∀ t, txs tx = some t → t.phase.isCommitted = false := by
  intro t ht
  rw [htx, Option.some.injEq] at ht
  exact ht ▸ hphase

theorem Serial.begin (h : Serial code first txs key slot) (htx : txs tx = none) (request : Req) :
    Serial code first (Function.update txs tx (some ⟨request, .begun⟩)) key slot := by
  refine ⟨h.history.quiet (by simp [htx]) rfl ?_, h.guarded.idle ?_ rfl⟩
  · intro hmem
    obtain ⟨t, ht, -⟩ := h.history.past tx hmem
    simp [htx] at ht
  · intro own hholder
    obtain ⟨t, ht, -⟩ := h.guarded.held tx own hholder
    simp [htx] at ht

-- The insert that does nothing on a conflict.
theorem Serial.insert (h : Serial code first txs key slot) (htx : txs tx = some ⟨request, .begun⟩)
    (hkey : code.key request = key) {slot' : Slot Row}
    (hslot : slot.insertDoNothing tx (code.placeholder request) = some slot') :
    Serial code first (Function.update txs tx (some ⟨request, .inserted⟩)) key slot' := by
  have hnot : ∀ own, slot.holder ≠ some (tx, own) := by
    intro own hholder
    cases h.guarded.heldBy htx hholder <;> contradiction
  have hhistory : History code first (Function.update txs tx (some ⟨request, .inserted⟩)) key
      slot.committed slot.order :=
    h.history.quiet (quiet_of htx rfl) rfl fun hmem => absurd hmem (h.history.notMem htx rfl)
  unfold Slot.insertDoNothing at hslot
  split at hslot
  · rw [Option.some.injEq] at hslot
    exact hslot ▸ ⟨hhistory, h.guarded.idle hnot rfl⟩
  · next hcommitted hholder =>
    rw [Option.some.injEq] at hslot
    subst hslot
    refine ⟨hhistory, h.guarded.turn (by simp [hholder]) ?_ (by simp [Phase.isLocked])⟩
    intro other own hown
    simp only [Option.some.injEq, Prod.mk.injEq] at hown
    exact ⟨hown.1.symm, hkey, .inserted rfl hcommitted hown.2.symm⟩
  · next other own hcommitted hholder =>
    split_ifs at hslot with he
    exact absurd (he ▸ hholder) (hnot own)

-- The transaction is given the lock on the row that it finds.
theorem Serial.lock (h : Serial code first txs key slot) (htx : txs tx = some ⟨request, .inserted⟩)
    (hkey : code.key request = key) {read : Row}
    (hfree : ∀ other own, slot.holder = some (other, own) → other = tx)
    (hread : read = slot.committed.getD (code.placeholder request)) :
    Serial code first (Function.update txs tx (some ⟨request, .locked read⟩)) key
      { slot with holder := some (tx, read), order := slot.order ++ [tx] } := by
  have hnotin := h.history.notMem htx rfl
  refine ⟨?_, h.guarded.turn hfree ?_ ?_⟩
  · have hhistory : History code first (Function.update txs tx (some ⟨request, .locked read⟩)) key
        slot.committed
        slot.order := h.history.quiet (quiet_of htx rfl) rfl fun hmem => absurd hmem hnotin
    exact hhistory.append (Function.update_self ..) hkey hnotin rfl rfl
  · intro other own hown
    simp only [Option.some.injEq, Prod.mk.injEq] at hown
    obtain ⟨rfl, rfl⟩ := hown
    exact ⟨rfl, hkey, .locked slot.order rfl rfl hread⟩
  · exact fun _ => ⟨read, rfl⟩

theorem Serial.abort (h : Serial code first txs key slot) (htx : txs tx = some ⟨request, phase⟩)
    (hkey : code.key request = key) (hphase : phase.isCommitted = false) :
    Serial code first (Function.update txs tx (some ⟨request, .rolledBack⟩)) key
      (slot.rollback tx) := by
  have hhistory : History code first (Function.update txs tx (some ⟨request, .rolledBack⟩)) key
      slot.committed slot.order := h.history.quiet (quiet_of htx hphase) rfl fun _ => ⟨hkey, rfl⟩
  unfold Slot.rollback
  split
  · next other own hholder =>
    split_ifs with he
    · refine ⟨hhistory, h.guarded.turn ?_ (by simp) (by simp [Phase.isLocked])⟩
      simp [hholder, he]
    · refine ⟨hhistory, h.guarded.idle ?_ rfl⟩
      simp [hholder, he]
  · next hholder => exact ⟨hhistory, h.guarded.idle (by simp [hholder]) rfl⟩

theorem Serial.select (h : Serial code first txs key slot)
    (htx : txs tx = some ⟨request, .inserted⟩) (hkey : code.key request = key) {slot' : Slot Row} :
    (∀ read, slot.selectForUpdate tx = some (some read, slot') →
      Serial code first (Function.update txs tx (some ⟨request, .locked read⟩)) key slot') ∧
    (slot.selectForUpdate tx = some (none, slot') →
      Serial code first (Function.update txs tx (some ⟨request, .rolledBack⟩)) key
        (slot'.rollback tx)) := by
  unfold Slot.selectForUpdate
  split
  · next other own hholder =>
    split_ifs with he
    · subst he
      refine ⟨?_, by simp⟩
      intro read hread
      simp only [Option.some.injEq, Prod.mk.injEq] at hread
      obtain ⟨rfl, rfl⟩ := hread
      -- the row of its own insert, as nothing is committed
      cases h.guarded.heldBy htx hholder with
      | inserted _ hcommitted hown =>
          have hread : own = slot.committed.getD (code.placeholder request) := by
            simp [hcommitted, hown]
          have hlock := h.lock htx hkey (by simp [hholder]) hread
          rwa [← hholder] at hlock
      | locked _ hphase => contradiction
      | updated _ hphase => contradiction
    · simp
  · next row hholder hcommitted =>
    refine ⟨?_, by simp⟩
    intro read hread
    simp only [Option.some.injEq, Prod.mk.injEq] at hread
    obtain ⟨rfl, rfl⟩ := hread
    exact h.lock htx hkey (by simp [hholder]) (by simp [hcommitted])
  · refine ⟨by simp, ?_⟩
    intro hslot
    simp only [Option.some.injEq, Prod.mk.injEq, true_and] at hslot
    exact hslot ▸ h.abort htx hkey rfl

-- A transaction that has the lock has the row to itself.
theorem Serial.holder_of_locked (h : Serial code first txs key slot)
    (htx : txs tx = some ⟨request, phase⟩)
    (hkey : code.key request = key) (hphase : phase.isLocked = true) :
    ∃ own, slot.holder = some (tx, own) ∧ Held code slot tx ⟨request, phase⟩ own := by
  obtain ⟨own, hholder⟩ := h.guarded.owned tx _ htx hkey hphase
  exact ⟨own, hholder, h.guarded.heldBy htx hholder⟩

-- The update is of the row that was read, and never waits.
theorem Serial.update (h : Serial code first txs key slot) {read : Row}
    (htx : txs tx = some ⟨request, .locked read⟩) (hkey : code.key request = key) :
    ∃ slot', slot.update tx (code.rewrite request read) = some (some (code.rewrite request read),
      slot') ∧ Serial code first (Function.update txs tx
        (some ⟨request, .updated (code.rewrite request read)⟩)) key slot' := by
  obtain ⟨own, hholder, hheld⟩ := h.holder_of_locked htx hkey rfl
  refine ⟨{ slot with
    holder := some (tx, code.rewrite request read) }, by simp [Slot.update, hholder], ?_, ?_⟩
  · exact h.history.quiet (quiet_of htx rfl) rfl fun _ => ⟨hkey, rfl⟩
  · refine h.guarded.turn (by simp [hholder]) ?_ fun _ => ⟨_, rfl⟩
    intro other written hwritten
    simp only [Option.some.injEq, Prod.mk.injEq] at hwritten
    obtain ⟨rfl, rfl⟩ := hwritten
    cases hheld with
    | inserted hphase => contradiction
    | locked front hphase horder hown =>
        rw [Phase.locked.injEq] at hphase
        exact ⟨rfl, hkey, .updated front rfl horder (by rw [hphase, hown, Upsert.write])⟩
    | updated _ hphase => contradiction

theorem Serial.commit (h : Serial code first txs key slot) {written : Row}
    (htx : txs tx = some ⟨request, .updated written⟩) (hkey : code.key request = key) :
    Serial code first (Function.update txs tx (some ⟨request, .committed written⟩)) key
      (slot.commit tx) := by
  obtain ⟨own, hholder, hheld⟩ := h.holder_of_locked htx hkey rfl
  cases hheld with
  | inserted hphase => contradiction
  | locked _ hphase => contradiction
  | updated front hphase horder hown =>
      rw [Phase.updated.injEq] at hphase
      subst hphase
      simp only [Slot.commit, hholder, if_true]
      refine ⟨?_, h.guarded.turn (by simp [hholder]) (by simp) (by simp [Phase.isLocked])⟩
      have hhistory := h.history
      rw [horder] at hhistory
      simpa only [horder] using hhistory.commit htx hkey rfl hown

-- One statement of a transaction of the key.
theorem Serial.next (h : Serial code first txs key slot) (htx : txs tx = some ⟨request, phase⟩)
    (hkey : code.key request = key) {slot' : Slot Row}
    (hnext : RowLock.next code tx ⟨request, phase⟩ slot = some (phase', slot')) :
    Serial code first (Function.update txs tx (some ⟨request, phase'⟩)) key slot' := by
  cases phase with
  | begun =>
      simp only [RowLock.next, Option.map_eq_some_iff, Prod.mk.injEq] at hnext
      obtain ⟨found, hfound, rfl, rfl⟩ := hnext
      exact h.insert htx hkey hfound
  | inserted =>
      simp only [RowLock.next, Option.map_eq_some_iff] at hnext
      obtain ⟨⟨found, after⟩, hfound, hnext⟩ := hnext
      cases found with
      | none =>
          rw [Prod.mk.injEq] at hnext
          obtain ⟨rfl, rfl⟩ := hnext
          exact (h.select htx hkey).2 hfound
      | some read =>
          rw [Prod.mk.injEq] at hnext
          obtain ⟨rfl, rfl⟩ := hnext
          exact (h.select htx hkey).1 read hfound
  | locked read =>
      obtain ⟨after, hafter, hserial⟩ := h.update htx hkey
      simp only [RowLock.next, hafter, Option.map_some, Option.some.injEq, Prod.mk.injEq] at hnext
      obtain ⟨rfl, rfl⟩ := hnext
      exact hserial
  | updated written =>
      simp only [RowLock.next, Option.some.injEq, Prod.mk.injEq] at hnext
      obtain ⟨rfl, rfl⟩ := hnext
      exact h.commit htx hkey
  | committed _ => simp [RowLock.next] at hnext
  | rolledBack => simp [RowLock.next] at hnext

end Steps

section Runs

variable [DecidableEq Key] {rows : Key → Option Row} {db : Db Key Row Req}

theorem serial_set (h : ∀ key, Serial code (rows key) db.txs key (db.slots key))
    (hold : ∀ t, db.txs tx = some t → t.request = request)
    (hnew : Serial code (rows (code.key request))
      (Function.update db.txs tx (some ⟨request, phase'⟩)) (code.key request) slot) (key : Key) :
    Serial code (rows key) (db.set code tx request phase' slot).txs key
      ((db.set code tx request phase' slot).slots key) := by
  by_cases he : key = code.key request
  · subst he
    simpa only [Db.set, Function.update_self] using hnew
  · simp only [Db.set, Function.update_of_ne he]
    apply (h key).frame
    · intro t ht
      rw [hold t ht]
      exact Ne.symm he
    · exact Ne.symm he

theorem serial_move (h : ∀ key, Serial code (rows key) db.txs key (db.slots key)) (move : Move Req)
    (key : Key) :
    Serial code (rows key) (db.move code move).txs key ((db.move code move).slots key) := by
  cases move with
  | begin tx request =>
      cases htx : db.txs tx with
      | none =>
          simp only [Db.move, htx]
          exact serial_set h (by simp [htx]) ((h _).begin htx request) key
      | some t =>
          simp only [Db.move, htx]
          exact h key
  | step tx =>
      cases htx : db.txs tx with
      | none =>
          simp only [Db.move, htx]
          exact h key
      | some t =>
          simp only [Db.move, htx]
          split
          · exact h key
          · next phase' slot' hnext =>
            exact serial_set h (by simp [htx]) ((h _).next htx rfl hnext) key
  | fail tx =>
      cases htx : db.txs tx with
      | none =>
          simp only [Db.move, htx]
          exact h key
      | some t =>
          simp only [Db.move, htx]
          split_ifs with hactive
          · refine serial_set h (by simp [htx]) ((h _).abort htx rfl ?_) key
            cases hphase : t.phase <;> simp_all [Phase.isActive, Phase.isCommitted]
          · exact h key

theorem serial_moves (h : ∀ key, Serial code (rows key) db.txs key (db.slots key))
    (moves : List (Move Req))
    (key : Key) : Serial code (rows key) (moves.foldl (Db.move code) db).txs key
      ((moves.foldl (Db.move code) db).slots key) := by
  induction moves generalizing db with
  | nil => exact h key
  | cons move moves ih => exact ih (serial_move h move)

-- Whatever the transactions and their interleaving are.
theorem serial_run (code : Upsert Key Row Req) (moves : List (Move Req)) (rows : Key → Option Row)
    (key : Key) :
    Serial code (rows key) (run code moves rows).txs key ((run code moves rows).slots key) :=
  serial_moves (fun key => serial_start (rows key) key) moves key

end Runs

end Invariant

end Effects.RowLock
