import RmqttThings.Effects.RowLock

namespace Effects.Transactions

open RowLock (txs_update_cases)

-- What a transaction does next. A statement takes locks that are kept to the end of the
-- transaction, and changes the transaction's own version of the data.
inductive Action (σ Key Phase : Type) where
  | statement (locks : List Key) (change : σ → σ) (phase : Phase)
  | commit
  | rollback

-- The code of the transactions: `next` is given what the statement sees, which is all that is
-- committed by then, and the own changes.
structure Code (σ Key Req Phase : Type) where
  first : Req → Phase
  next : Req → Phase → σ → Action σ Key Phase

inductive Status where
  | active
  | committed
  | rolledBack
deriving DecidableEq

structure Tx (σ Req Phase : Type) where
  request : Req
  phase : Phase
  change : σ → σ
  status : Status

-- The order of a key is a ghost: the transactions that were given its lock, oldest first.
structure Db (σ Key Req Phase : Type) where
  committed : σ
  holder : Key → Option Nat
  order : Key → List Nat
  txs : Nat → Option (Tx σ Req Phase)

section Run

variable {σ Key Req Phase : Type}

namespace Db

-- What the next statement of a transaction sees.
def view (db : Db σ Key Req Phase) (t : Tx σ Req Phase) : σ := t.change db.committed

def put (db : Db σ Key Req Phase) (tx : Nat) (t : Tx σ Req Phase) : Db σ Key Req Phase :=
  { db with txs := Function.update db.txs tx (some t) }

def release (db : Db σ Key Req Phase) (tx : Nat) : Db σ Key Req Phase :=
  { db with holder := fun key => if db.holder key = some tx then none else db.holder key }

def commit (db : Db σ Key Req Phase) (tx : Nat) (t : Tx σ Req Phase) : Db σ Key Req Phase :=
  { (db.release tx).put tx { t with status := .committed } with committed := db.view t }

def rollback (db : Db σ Key Req Phase) (tx : Nat) (t : Tx σ Req Phase) : Db σ Key Req Phase :=
  (db.release tx).put tx { t with status := .rolledBack }

def start (data : σ) : Db σ Key Req Phase := ⟨data, fun _ => none, fun _ => [], fun _ => none⟩

section Fields

variable (db : Db σ Key Req Phase) (tx : Nat) (t : Tx σ Req Phase)

@[simp] theorem put_committed : (db.put tx t).committed = db.committed := rfl
@[simp] theorem put_holder : (db.put tx t).holder = db.holder := rfl
@[simp] theorem put_order : (db.put tx t).order = db.order := rfl
@[simp] theorem put_txs : (db.put tx t).txs = Function.update db.txs tx (some t) := rfl

@[simp] theorem commit_committed : (db.commit tx t).committed = db.view t := rfl
@[simp] theorem commit_order : (db.commit tx t).order = db.order := rfl
@[simp] theorem commit_txs : (db.commit tx t).txs =
    Function.update db.txs tx (some { t with status := .committed }) := rfl

theorem commit_holder (key : Key) : (db.commit tx t).holder key =
    if db.holder key = some tx then none else db.holder key := rfl

@[simp] theorem rollback_committed : (db.rollback tx t).committed = db.committed := rfl
@[simp] theorem rollback_order : (db.rollback tx t).order = db.order := rfl
@[simp] theorem rollback_txs : (db.rollback tx t).txs =
    Function.update db.txs tx (some { t with status := .rolledBack }) := rfl

theorem rollback_holder (key : Key) : (db.rollback tx t).holder key =
    if db.holder key = some tx then none else db.holder key := rfl

end Fields

variable [DecidableEq Key]

-- No other transaction holds one of the locks.
def Free (db : Db σ Key Req Phase) (tx : Nat) (locks : List Key) : Prop :=
  ∀ key ∈ locks, db.holder key = none ∨ db.holder key = some tx

instance (db : Db σ Key Req Phase) (tx : Nat) (locks : List Key) : Decidable (db.Free tx locks) :=
  inferInstanceAs (Decidable (∀ key ∈ locks, db.holder key = none ∨ db.holder key = some tx))

def grant (db : Db σ Key Req Phase) (tx : Nat) (locks : List Key) : Db σ Key Req Phase :=
  { db with
    holder := fun key => if key ∈ locks then some tx else db.holder key
    order := fun key => if key ∈ locks ∧ db.holder key ≠ some tx then db.order key ++
      [tx] else db.order key }

def statement (db : Db σ Key Req Phase) (tx : Nat) (t : Tx σ Req Phase) (locks : List Key)
    (change : σ → σ) (phase : Phase) : Db σ Key Req Phase :=
  (db.grant tx locks).put tx { t with phase := phase, change := change ∘ t.change }

section Fields

variable (db : Db σ Key Req Phase) (tx : Nat) (t : Tx σ Req Phase) (locks : List Key)
  (change : σ → σ) (phase : Phase)

@[simp] theorem statement_committed :
    (db.statement tx t locks change phase).committed = db.committed := rfl
@[simp] theorem statement_txs : (db.statement tx t locks change phase).txs =
    Function.update db.txs tx (some { t with phase := phase, change := change ∘ t.change }) := rfl

theorem statement_holder (key : Key) : (db.statement tx t locks change phase).holder key =
    if key ∈ locks then some tx else db.holder key := rfl

theorem statement_order (key : Key) : (db.statement tx t locks change phase).order key =
    if key ∈ locks ∧ db.holder key ≠ some tx then db.order key ++ [tx] else db.order key := rfl

end Fields

end Db

variable [DecidableEq Key]

variable (code : Code σ Key Req Phase)

-- The next action of an active transaction. A statement that needs a lock of another
-- transaction waits for it: its move just comes later.
def Db.act (db : Db σ Key Req Phase) (tx : Nat) (t : Tx σ Req Phase) : Db σ Key Req Phase :=
  match code.next t.request t.phase (db.view t) with
  | .statement locks change phase =>
      if db.Free tx locks then db.statement tx t locks change phase else db
  | .commit => db.commit tx t
  | .rollback => db.rollback tx t

-- Any transaction may begin, do its next action, or fail, also at its commit.
def Db.move (db : Db σ Key Req Phase) : RowLock.Move Req → Db σ Key Req Phase
  | .begin tx request =>
      match db.txs tx with
      | none => db.put tx ⟨request, code.first request, id, .active⟩
      | some _ => db
  | .step tx =>
      match db.txs tx with
      | none => db
      | some t => if t.status = .active then db.act code tx t else db
  | .fail tx =>
      match db.txs tx with
      | none => db
      | some t => if t.status = .active then db.rollback tx t else db

def run (moves : List (RowLock.Move Req)) (db : Db σ Key Req Phase) : Db σ Key Req Phase :=
    moves.foldl (Db.move code) db

theorem run_append (moves moves' : List (RowLock.Move Req)) (db : Db σ Key Req Phase) :
    run code (moves ++ moves') db = run code moves' (run code moves db) := List.foldl_append

-- The transaction of a move.
def mover : RowLock.Move Req → Nat
  | .begin tx _ => tx
  | .step tx => tx
  | .fail tx => tx

-- Everything that a move can do.
inductive Moved (db : Db σ Key Req Phase) : RowLock.Move Req → Db σ Key Req Phase → Prop where
  | same (move : RowLock.Move Req) : Moved db move db
  | begun (tx : Nat) (request : Req) : db.txs tx = none →
      Moved db (.begin tx request) (db.put tx ⟨request, code.first request, id, .active⟩)
  | statement (tx : Nat) (t : Tx σ Req Phase) (locks : List Key) (change : σ → σ) (phase : Phase) :
      db.txs tx = some t → t.status = .active →
      code.next t.request t.phase (db.view t) = .statement locks change phase → db.Free tx locks →
      Moved db (.step tx) (db.statement tx t locks change phase)
  | committed (tx : Nat) (t : Tx σ Req Phase) : db.txs tx = some t → t.status = .active →
      code.next t.request t.phase (db.view t) = .commit → Moved db (.step tx) (db.commit tx t)
  | rolledBack (move : RowLock.Move Req) (t : Tx σ Req Phase) :
      db.txs (mover move) = some t → t.status = .active → Moved db move (db.rollback (mover move) t)

variable {code}

theorem moved_act {db : Db σ Key Req Phase} {tx : Nat} {t : Tx σ Req Phase}
    (htx : db.txs tx = some t)
    (hactive : t.status = .active) : Moved code db (.step tx) (db.act code tx t) := by
  unfold Db.act
  split
  · next locks change phase hnext =>
    split_ifs with hfree
    · exact .statement tx t locks change phase htx hactive hnext hfree
    · exact .same _
  · next hnext => exact .committed tx t htx hactive hnext
  · exact .rolledBack (.step tx) t htx hactive

theorem moved_move (db : Db σ Key Req Phase) (move : RowLock.Move Req) :
    Moved code db move (db.move code move) := by
  cases move with
  | begin tx request =>
      cases htx : db.txs tx with
      | none =>
          simp only [Db.move, htx]
          exact .begun tx request htx
      | some t =>
          simp only [Db.move, htx]
          exact .same _
  | step tx =>
      cases htx : db.txs tx with
      | none =>
          simp only [Db.move, htx]
          exact .same _
      | some t =>
          simp only [Db.move, htx]
          split_ifs with hactive
          · exact moved_act htx hactive
          · exact .same _
  | fail tx =>
      cases htx : db.txs tx with
      | none =>
          simp only [Db.move, htx]
          exact .same _
      | some t =>
          simp only [Db.move, htx]
          split_ifs with hactive
          · exact .rolledBack (.fail tx) t htx hactive
          · exact .same _

-- Every move of a run is allowed in the state that it finds.
def Along (code : Code σ Key Req Phase) (allowed : Db σ Key Req Phase → RowLock.Move Req → Prop) :
    List (RowLock.Move Req) → Db σ Key Req Phase → Prop
  | [], _ => True
  | move :: moves, db => allowed db move ∧ Along code allowed moves (db.move code move)

theorem along_of_forall {allowed : Db σ Key Req Phase → RowLock.Move Req → Prop}
    {moves : List (RowLock.Move Req)}
    (h : ∀ db, ∀ move ∈ moves, allowed db move) (db : Db σ Key Req Phase) :
    Along code allowed moves db := by
  induction moves generalizing db with
  | nil => trivial
  | cons move moves ih =>
      exact ⟨h db move (by simp),
        ih (fun db later hlater => h db later (List.mem_cons_of_mem _ hlater)) _⟩

theorem run_induction_along {P : Db σ Key Req Phase → Prop}
    {allowed : Db σ Key Req Phase → RowLock.Move Req → Prop} {db : Db σ Key Req Phase}
    (hstart : P db)
    (hmoved : ∀ db move db', P db → allowed db move → Moved code db move db' → P db')
    {moves : List (RowLock.Move Req)}
    (h : Along code allowed moves db) : P (run code moves db) := by
  induction moves generalizing db with
  | nil => exact hstart
  | cons move moves ih => exact ih (hmoved db move _ hstart h.1 (moved_move db move)) h.2

-- What each move keeps holds along every run.
theorem run_induction {P : Db σ Key Req Phase → Prop} {db : Db σ Key Req Phase} (hstart : P db)
    (hmoved : ∀ db move db', P db → Moved code db move db' → P db')
    (moves : List (RowLock.Move Req)) :
    P (run code moves db) := by
  induction moves generalizing db with
  | nil => exact hstart
  | cons move moves ih => exact ih (hmoved db move _ hstart (moved_move db move))

end Run

section Locks

variable {σ Key Req Phase : Type}

-- The lock of a key is given to one transaction after the other, and each keeps it to its end.
structure Locks (db : Db σ Key Req Phase) (key : Key) : Prop where
  nodup : (db.order key).Nodup
  known : ∀ tx ∈ db.order key, ∃ t, db.txs tx = some t ∧
    (t.status = .active → db.holder key = some tx)
  held : ∀ tx, db.holder key = some tx →
    (∃ t, db.txs tx = some t ∧ t.status = .active) ∧ ∃ front, db.order key = front ++ [tx]

variable {db db' : Db σ Key Req Phase} {key : Key} {tx : Nat} {t t' : Tx σ Req Phase}

theorem Locks.notMem (h : Locks db key) (htx : db.txs tx = some t) (hactive : t.status = .active)
    (hholder : db.holder key ≠ some tx) : tx ∉ db.order key := by
  intro hmem
  obtain ⟨found, hfound, hheld⟩ := h.known tx hmem
  rw [htx, Option.some.injEq] at hfound
  exact hholder (hheld (hfound ▸ hactive))

-- Other transactions are as before.
theorem Locks.put (h : Locks db key) (htx : tx ∉ db.order key)
    (hholder : db'.holder key = db.holder key)
    (horder : db'.order key = db.order key) (htxs : db'.txs = Function.update db.txs tx (some t')) :
    Locks db' key := by
  refine ⟨horder ▸ h.nodup, ?_, ?_⟩
  · intro other hother
    rw [horder] at hother
    have hne : other ≠ tx := fun he => htx (he ▸ hother)
    obtain ⟨found, hfound, hheld⟩ := h.known other hother
    exact ⟨found, by rw [htxs, Function.update_of_ne hne, hfound], hholder ▸ hheld⟩
  · intro other hother
    rw [hholder] at hother
    obtain ⟨hactive, front, hfront⟩ := h.held other hother
    have hne : other ≠ tx := by
      rintro rfl
      exact htx (by simp [hfront])
    rw [htxs, Function.update_of_ne hne, horder]
    exact ⟨hactive, front, hfront⟩

theorem locks_start (data : σ) (key : Key) : Locks (Db.start data : Db σ Key Req Phase) key :=
  ⟨List.nodup_nil, by simp [Db.start], by simp [Db.start]⟩

-- The end of a transaction.
theorem Locks.ended (h : Locks db key) (htx : db.txs tx = some t) (hactive : t.status = .active)
    (hstatus : t'.status ≠ .active)
    (hholder : db'.holder key = if db.holder key = some tx then none else db.holder key)
    (horder : db'.order key = db.order key) (htxs : db'.txs = Function.update db.txs tx (some t')) :
    Locks db' key := by
  by_cases hheld : db.holder key = some tx
  · rw [if_pos hheld] at hholder
    refine ⟨horder ▸ h.nodup, ?_, by simp [hholder]⟩
    intro other hother
    rw [horder] at hother
    by_cases he : other = tx
    · subst he
      exact ⟨t', by rw [htxs, Function.update_self], fun hactive => absurd hactive hstatus⟩
    · obtain ⟨found, hfound, hother⟩ := h.known other hother
      refine ⟨found, by rw [htxs, Function.update_of_ne he, hfound], fun hactive => ?_⟩
      have hown := hother hactive
      rw [hheld, Option.some.injEq] at hown
      exact absurd hown.symm he
  · rw [if_neg hheld] at hholder
    exact h.put (h.notMem htx hactive hheld) hholder horder htxs

variable [DecidableEq Key] {code : Code σ Key Req Phase}

theorem Locks.statement (h : Locks db key) (htx : db.txs tx = some t) (hactive : t.status = .active)
    {locks : List Key} (hfree : db.Free tx locks) (change : σ → σ) (phase : Phase) :
    Locks (db.statement tx t locks change phase) key := by
  by_cases hheld : db.holder key = some tx
  · -- the lock was its own already
    have horder : (db.statement tx t locks change phase).order key = db.order key := by
      simp [Db.statement_order, hheld]
    have hholder : (db.statement tx t locks change phase).holder key = some tx := by
      simp [Db.statement_holder, hheld]
    refine ⟨horder ▸ h.nodup, ?_, ?_⟩
    · intro other hother
      rw [horder] at hother
      by_cases he : other = tx
      · subst he
        exact ⟨_, Function.update_self .., fun _ => hholder⟩
      · obtain ⟨found, hfound, hother⟩ := h.known other hother
        refine ⟨found, by rw [Db.statement_txs, Function.update_of_ne he, hfound],
          fun hstatus => ?_⟩
        rw [hholder, ← hheld, hother hstatus]
    · intro other hother
      rw [hholder, Option.some.injEq] at hother
      subst hother
      rw [horder]
      exact ⟨⟨_, Function.update_self .., hactive⟩, (h.held tx hheld).2⟩
  · have hnotMem := h.notMem htx hactive hheld
    by_cases hmem : key ∈ locks
    · have hfree : db.holder key = none := (hfree key hmem).resolve_right hheld
      have horder : (db.statement tx t locks change phase).order key = db.order key ++ [tx] := by
        simp [Db.statement_order, hheld, hmem]
      have hholder : (db.statement tx t locks change phase).holder key = some tx := by
        simp [Db.statement_holder, hmem]
      refine ⟨?_, ?_, ?_⟩
      · rw [horder, List.nodup_append]
        refine ⟨h.nodup, List.nodup_singleton tx, ?_⟩
        intro other hother last hlast he
        rw [List.mem_singleton] at hlast
        exact hnotMem (hlast ▸ he ▸ hother)
      · intro other hother
        by_cases he : other = tx
        · subst he
          exact ⟨_, Function.update_self .., fun _ => hholder⟩
        · simp only [horder, List.mem_append, List.mem_singleton, he, or_false] at hother
          obtain ⟨found, hfound, hother⟩ := h.known other hother
          refine ⟨found, by rw [Db.statement_txs, Function.update_of_ne he, hfound],
            fun hstatus => ?_⟩
          simp [hfree] at hother
          exact absurd hstatus hother
      · intro other hother
        rw [hholder, Option.some.injEq] at hother
        subst hother
        exact ⟨⟨_, Function.update_self .., hactive⟩, _, horder⟩
    · exact h.put hnotMem (by simp [Db.statement_holder, hmem]) (by simp [Db.statement_order, hmem])
        (Db.statement_txs ..)

theorem Locks.moved {move : RowLock.Move Req} (h : Locks db key) (hmoved : Moved code db move db') :
    Locks db' key := by
  cases hmoved with
  | same => exact h
  | begun tx request htx =>
      refine h.put ?_ rfl rfl (Db.put_txs ..)
      intro hmem
      obtain ⟨found, hfound, -⟩ := h.known tx hmem
      simp [htx] at hfound
  | statement tx t locks change phase htx hactive _ hfree =>
      exact h.statement htx hactive hfree change phase
  | committed tx t htx hactive =>
      exact h.ended htx hactive (by simp) (Db.commit_holder ..) rfl (Db.commit_txs ..)
  | rolledBack _ t htx hactive =>
      exact h.ended htx hactive (by simp) (Db.rollback_holder ..) rfl (Db.rollback_txs ..)

end Locks

section Commits

variable {σ Req Phase : Type} (touches : Req → Bool)

def committedRequest (t : Tx σ Req Phase) : Option Req :=
  if t.status = .committed ∧ touches t.request = true then some t.request else none

-- The requests of the committed ones among the transactions.
def commits (txs : Nat → Option (Tx σ Req Phase)) (order : List Nat) : List Req :=
  order.filterMap fun tx => (txs tx).bind (committedRequest touches)

variable {touches} {txs : Nat → Option (Tx σ Req Phase)} {tx : Nat} {t t' : Tx σ Req Phase}

theorem commits_concat (order : List Nat) : commits touches txs (order ++ [tx]) =
    commits touches txs order ++ ((txs tx).bind (committedRequest touches)).toList := by
  rw [commits, List.filterMap_append, commits]
  cases h : (txs tx).bind (committedRequest touches) <;> simp [h]

theorem committedRequest_of_ne (h : t.status ≠ .committed) : committedRequest touches t = none := by
  simp [committedRequest, h]

-- A change of a transaction that is not seen.
theorem commits_update_of_eq (h : (txs tx).bind (committedRequest touches) =
    committedRequest touches t')
    (order : List Nat) :
    commits touches (Function.update txs tx (some t')) order = commits touches txs order := by
  apply List.filterMap_congr
  intro other _
  by_cases he : other = tx
  · rw [he, Function.update_self, Option.bind_some, h]
  · rw [Function.update_of_ne he]

theorem commits_update_of_notMem {order : List Nat} (h : tx ∉ order) :
    commits touches (Function.update txs tx (some t')) order = commits touches txs order := by
  apply List.filterMap_congr
  intro other hother
  have hne : other ≠ tx := fun he => h (he ▸ hother)
  rw [Function.update_of_ne hne]

end Commits

section Growth

variable {σ Key Req Phase : Type} {touches : Req → Bool} {db db' : Db σ Key Req Phase} {key : Key}
  {tx : Nat} {t t' : Tx σ Req Phase}

theorem Locks.notMem_of_none (h : Locks db key) (htx : db.txs tx = none) : tx ∉ db.order key := by
  intro hmem
  obtain ⟨found, hfound, -⟩ := h.known tx hmem
  simp [htx] at hfound

theorem Locks.commits_put (h : Locks db key) (htx : db.txs tx = none) :
    commits touches (db.put tx t').txs (db.order key) = commits touches db.txs (db.order key) :=
  commits_update_of_notMem (h.notMem_of_none htx)

-- An active transaction counts for nothing.
theorem commits_update_of_active (htx : db.txs tx = some t) (hactive : t.status = .active)
    (hstatus : t'.status ≠ .committed) (order : List Nat) :
    commits touches (Function.update db.txs tx (some t')) order = commits touches db.txs order := by
  have hquiet : committedRequest touches t = none := committedRequest_of_ne (by simp [hactive])
  apply commits_update_of_eq
  rw [htx, Option.bind_some, hquiet, committedRequest_of_ne hstatus]

theorem Locks.commits_commit (h : Locks db key) (htx : db.txs tx = some t)
    (hactive : t.status = .active) :
    commits touches (db.commit tx t).txs (db.order key) = commits touches db.txs (db.order key) ++
      if db.holder key = some tx ∧ touches t.request = true then [t.request] else [] := by
  by_cases hheld : db.holder key = some tx
  · obtain ⟨-, front, hfront⟩ := h.held tx hheld
    have hnotMem : tx ∉ front := by
      have hnodup := h.nodup
      rw [hfront, List.nodup_append] at hnodup
      exact fun hmem => hnodup.2.2 tx hmem tx (by simp) rfl
    have hquiet : committedRequest touches t = none := committedRequest_of_ne (by simp [hactive])
    rw [hfront, commits_concat, commits_concat, Db.commit_txs, commits_update_of_notMem hnotMem,
      htx, Function.update_self, Option.bind_some, Option.bind_some, hquiet]
    by_cases htouches : touches t.request = true
    · simp [committedRequest, hheld, htouches]
    · simp [committedRequest, htouches]
  · rw [Db.commit_txs, commits_update_of_notMem (h.notMem htx hactive hheld)]
    simp [hheld]

variable [DecidableEq Key] {code : Code σ Key Req Phase}

theorem commits_statement (htx : db.txs tx = some t) (hactive : t.status = .active)
    (locks : List Key) (change : σ → σ) (phase : Phase) :
    commits touches (db.statement tx t locks change phase).txs
      ((db.statement tx t locks change phase).order key) =
      commits touches db.txs (db.order key) := by
  rw [Db.statement_txs, commits_update_of_active htx hactive (by simp [hactive]),
    Db.statement_order]
  split_ifs
  · rw [commits_concat, htx, Option.bind_some, committedRequest_of_ne (by simp [hactive])]
    simp
  · rfl

-- A move adds at most one committed request.
theorem Locks.commits_moved {move : RowLock.Move Req} (h : Locks db key)
    (hmoved : Moved code db move db') :
    commits touches db'.txs (db'.order key) = commits touches db.txs (db.order key) ∨
      ∃ request, commits touches db'.txs (db'.order key) = commits touches db.txs (db.order key) ++
        [request] := by
  cases hmoved with
  | same => exact .inl rfl
  | begun tx request htx => exact .inl (h.commits_put htx)
  | statement tx t locks change phase htx hactive =>
      exact .inl (commits_statement htx hactive locks change phase)
  | committed tx t htx hactive =>
      rw [Db.commit_order, h.commits_commit htx hactive]
      split_ifs
      · exact .inr ⟨t.request, rfl⟩
      · exact .inl (List.append_nil _)
  | rolledBack _ t htx hactive => exact .inl (commits_update_of_active htx hactive (by simp) _)

theorem locks_run (moves : List (RowLock.Move Req)) (data : σ) (key : Key) :
    Locks (run code moves (Db.start data)) key :=
  run_induction (locks_start data key) (fun _ _ _ h hmoved => Locks.moved h hmoved) moves

-- The committed requests of a state, all along a run.
theorem commits_run (touches : Req → Bool) (key : Key) (moves : List (RowLock.Move Req))
    (h : Locks db key) :
    commits touches db.txs (db.order key) <+: commits touches (run code moves db).txs
      ((run code moves db).order key) := by
  induction moves generalizing db with
  | nil => exact List.prefix_rfl
  | cons move moves ih =>
      have hmoved : Moved code db move (db.move code move) := moved_move db move
      refine List.IsPrefix.trans ?_ (ih (h.moved hmoved))
      rcases h.commits_moved hmoved with hsame | ⟨request, hgrown⟩
      · exact hsame ▸ List.prefix_rfl
      · exact hgrown ▸ List.prefix_append _ _

end Growth

section Serial

variable {σ Key Req Phase α : Type}

-- How far a transaction is, and what it makes of the part.
inductive Standing (key : Key) (part : σ → α) (touches : Req → Bool) (Waiting : Req → Phase → Prop)
    (Owning : Req → Phase → α → α → Prop) (db : Db σ Key Req Phase) (tx : Nat)
    (t : Tx σ Req Phase) : Prop where
  | foreign : touches t.request = false → (∀ data, part (t.change data) = part data) →
      Standing key part touches Waiting Owning db tx t
  | waiting : touches t.request = true → Waiting t.request t.phase → db.holder key ≠ some tx →
      (∀ data, part (t.change data) = part data) → Standing key part touches Waiting Owning db tx t
  | owning (own : α) : touches t.request = true → db.holder key = some tx →
      Owning t.request t.phase (part db.committed) own →
      (∀ data, part data = part db.committed → part (t.change data) = own) →
      Standing key part touches Waiting Owning db tx t

-- The committed requests have had the part to themselves, in the order of the lock.
structure Serial (key : Key) (part : σ → α) (touches : Req → Bool) (effect : α → Req → α)
    (Waiting : Req → Phase → Prop) (Owning : Req → Phase → α → α → Prop) (first : α)
    (db : Db σ Key Req Phase) :
    Prop where
  locks : Locks db key
  committed : part db.committed = (commits touches db.txs (db.order key)).foldl effect first
  complete : ∀ tx t, db.txs tx = some t → t.status = .committed → touches t.request = true →
    tx ∈ db.order key
  standing : ∀ tx t, db.txs tx = some t → t.status = .active →
    Standing key part touches Waiting Owning db tx t

variable {key : Key} {part : σ → α} {touches : Req → Bool} {effect : α → Req → α}
  {Waiting : Req → Phase → Prop} {Owning : Req → Phase → α → α → Prop} {first : α}
  {db db' : Db σ Key Req Phase} {tx : Nat} {t t' : Tx σ Req Phase}

-- A transaction that does not have the lock is not concerned by what the holder does.
theorem Standing.other {other : Nat} (h : Standing key part touches Waiting Owning db other t)
    (hpart : db.holder key = some other → part db'.committed = part db.committed)
    (hholder : db'.holder key = some other ↔ db.holder key = some other) :
    Standing key part touches Waiting Owning db' other t := by
  cases h with
  | foreign htouches hchange => exact .foreign htouches hchange
  | waiting htouches hwaiting hnot hchange =>
      exact .waiting htouches hwaiting (mt hholder.mp hnot) hchange
  | owning own htouches hown howning hchange =>
      refine .owning own htouches (hholder.mpr hown) ?_ ?_
      · rw [hpart hown]
        exact howning
      · rw [hpart hown]
        exact hchange

-- The end of a transaction: the others see a new part only if it had the lock.
theorem Serial.others (h : Serial key part touches effect Waiting Owning first db)
    (htx : db.txs tx = some t)
    (hpart : db.holder key ≠ some tx → part db'.committed = part db.committed)
    (hholder : db'.holder key = if db.holder key = some tx then none else db.holder key)
    (htxs : db'.txs = Function.update db.txs tx (some t')) (hstatus' : t'.status ≠ .active)
    (other : Nat) (found : Tx σ Req Phase) (hfound : db'.txs other = some found)
    (hstatus : found.status = .active) :
    Standing key part touches Waiting Owning db' other found := by
  rcases txs_update_cases htxs hfound with ⟨rfl, rfl⟩ | ⟨he, hfound⟩
  · exact absurd hstatus hstatus'
  · refine (h.standing other found hfound hstatus).other ?_ ?_
    · intro hown
      refine hpart fun hheld => ?_
      rw [hown, Option.some.injEq] at hheld
      exact he hheld
    · rw [hholder]
      split_ifs with hheld
      · simp [hheld, Ne.symm he]
      · rfl

theorem Serial.rolledBack (h : Serial key part touches effect Waiting Owning first db)
    (htx : db.txs tx = some t) (hactive : t.status = .active) :
    Serial key part touches effect Waiting Owning first (db.rollback tx t) := by
  have hmoved : Locks (db.rollback tx t) key :=
    h.locks.ended htx hactive (by simp) (Db.rollback_holder ..) rfl (Db.rollback_txs ..)
  refine ⟨hmoved, ?_, ?_, ?_⟩
  · rw [Db.rollback_txs, Db.rollback_order, commits_update_of_active htx hactive (by simp)]
    exact h.committed
  · intro other found hfound hstatus htouches
    rcases txs_update_cases (Db.rollback_txs ..) hfound with ⟨rfl, rfl⟩ | ⟨-, hfound⟩
    · simp at hstatus
    · exact h.complete other found hfound hstatus htouches
  · exact h.others htx (fun _ => rfl) (Db.rollback_holder ..) (Db.rollback_txs ..) (by simp)

variable [DecidableEq Key] {code : Code σ Key Req Phase}

-- A part of the data that is guarded by the lock of a key. The requests that touch it take the
-- lock before they read or change it; what they leave of it is `effect`.
structure Guards (code : Code σ Key Req Phase) (key : Key) (part : σ → α) (touches : Req → Bool)
    (effect : α → Req → α) (Waiting : Req → Phase → Prop) (Owning : Req → Phase → α → α → Prop) :
    Prop where
  foreign : ∀ {request phase view locks change phase'}, touches request = false →
    code.next request phase view = .statement locks change phase' → ∀ data, part (change data) =
      part data
  first : ∀ {request}, touches request = true → Waiting request (code.first request)
  waiting : ∀ {request phase view locks change phase'}, touches request = true →
    Waiting request phase → code.next request phase view = .statement locks change phase' →
    if key ∈ locks then ∃ own, Owning request phase' (part view) own ∧
      ∀ data, part data = part view → part (change data) = own
    else Waiting request phase' ∧ ∀ data, part (change data) = part data
  waits : ∀ {request phase view}, touches request = true → Waiting request phase →
    code.next request phase view ≠ .commit
  owning : ∀ {request phase view before locks change phase'}, touches request = true →
    Owning request phase before (part view) → code.next request phase view =
      .statement locks change phase' →
    ∃ own, Owning request phase' before own ∧ ∀ data, part data = part view →
      part (change data) = own
  commits : ∀ {request phase view before}, touches request = true →
    Owning request phase before (part view) →
    code.next request phase view = .commit → part view = effect before request

theorem Serial.begun (hguards : Guards code key part touches effect Waiting Owning)
    (h : Serial key part touches effect Waiting Owning first db) (htx : db.txs tx = none)
    (request : Req) :
    Serial key part touches effect Waiting Owning first (db.put tx ⟨request, code.first request, id,
      .active⟩) := by
  have hmoved : Moved code db (.begin tx request) (db.put tx ⟨request, code.first request, id,
      .active⟩) :=
    .begun tx request htx
  refine ⟨h.locks.moved hmoved, ?_, ?_, ?_⟩
  · rw [Db.put_committed, Db.put_order, h.locks.commits_put htx]
    exact h.committed
  · intro other found hfound hstatus htouches
    rcases txs_update_cases (Db.put_txs ..) hfound with ⟨rfl, rfl⟩ | ⟨-, hfound⟩
    · simp at hstatus
    · exact h.complete other found hfound hstatus htouches
  · intro other found hfound hstatus
    rcases txs_update_cases (Db.put_txs ..) hfound with ⟨rfl, rfl⟩ | ⟨-, hfound⟩
    · cases htouches : touches request with
      | false => exact .foreign htouches fun _ => rfl
      | true =>
          refine .waiting htouches (hguards.first htouches) ?_ fun _ => rfl
          intro hheld
          obtain ⟨⟨found, hfound, -⟩, -⟩ := h.locks.held other hheld
          simp [htx] at hfound
    · exact (h.standing other found hfound hstatus).other (fun _ => rfl) Iff.rfl

-- What the statement makes of the transaction that does it.
theorem Standing.statement (hguards : Guards code key part touches effect Waiting Owning)
    (h : Standing key part touches Waiting Owning db tx t) {locks : List Key} {change : σ → σ}
    {phase : Phase}
    (hnext : code.next t.request t.phase (db.view t) = .statement locks change phase) :
    Standing key part touches Waiting Owning (db.statement tx t locks change phase) tx
      { t with phase := phase, change := change ∘ t.change } := by
  cases h with
  | foreign htouches hchange =>
      exact .foreign htouches fun data => (hguards.foreign htouches hnext _).trans (hchange data)
  | waiting htouches hwaiting hnot hchange =>
      have hstatement := hguards.waiting htouches hwaiting hnext
      split_ifs at hstatement with hmem
      · obtain ⟨own, howning, hown⟩ := hstatement
        rw [Db.view, hchange] at howning hown
        refine .owning own htouches (by simp [Db.statement_holder, hmem]) howning ?_
        intro data hdata
        exact hown (t.change data) ((hchange data).trans hdata)
      · refine .waiting htouches hstatement.1 (by simpa [Db.statement_holder, hmem] using hnot) ?_
        exact fun data => (hstatement.2 _).trans (hchange data)
  | owning own htouches hheld howning hchange =>
      have hview : part (db.view t) = own := hchange db.committed rfl
      rw [← hview] at howning
      obtain ⟨own', howning', hown'⟩ := hguards.owning htouches howning hnext
      refine .owning own' htouches (by simp [Db.statement_holder, hheld]) howning' ?_
      intro data hdata
      exact hown' (t.change data) ((hchange data hdata).trans hview.symm)

theorem Serial.statement (hguards : Guards code key part touches effect Waiting Owning)
    (h : Serial key part touches effect Waiting Owning first db) (htx : db.txs tx = some t)
    (hactive : t.status = .active) {locks : List Key} {change : σ → σ} {phase : Phase}
    (hnext : code.next t.request t.phase (db.view t) = .statement locks change phase)
    (hfree : db.Free tx locks) :
    Serial key part touches effect Waiting Owning first (db.statement tx t locks change phase) := by
  refine ⟨h.locks.statement htx hactive hfree change phase, ?_, ?_, ?_⟩
  · rw [commits_statement htx hactive, Db.statement_committed]
    exact h.committed
  · intro other found hfound hstatus htouches
    have hmem : other ∈ db.order key := by
      rcases txs_update_cases (Db.statement_txs ..) hfound with ⟨rfl, rfl⟩ | ⟨-, hfound⟩
      · simp [hactive] at hstatus
      · exact h.complete other found hfound hstatus htouches
    rw [Db.statement_order]
    split_ifs
    · exact List.mem_append_left _ hmem
    · exact hmem
  · intro other found hfound hstatus
    rcases txs_update_cases (Db.statement_txs ..) hfound with ⟨rfl, rfl⟩ | ⟨he, hfound⟩
    · exact (h.standing other t htx hactive).statement hguards hnext
    · refine (h.standing other found hfound hstatus).other (fun _ => rfl) ?_
      rw [Db.statement_holder]
      split_ifs with hmem
      · have hne : tx ≠ other := Ne.symm he
        rcases hfree key hmem with hnone | hown
        · simp [hnone, hne]
        · simp [hown, hne]
      · rfl

theorem Serial.commit (hguards : Guards code key part touches effect Waiting Owning)
    (h : Serial key part touches effect Waiting Owning first db) (htx : db.txs tx = some t)
    (hactive : t.status = .active) (hnext : code.next t.request t.phase (db.view t) = .commit) :
    Serial key part touches effect Waiting Owning first (db.commit tx t) := by
  have hlocks : Locks (db.commit tx t) key :=
    h.locks.ended htx hactive (by simp) (Db.commit_holder ..) rfl (Db.commit_txs ..)
  have hstanding := h.standing tx t htx hactive
  have hpart : db.holder key ≠ some tx → part (db.view t) = part db.committed := by
    intro hnot
    cases hstanding with
    | foreign _ hchange => exact hchange db.committed
    | waiting _ _ _ hchange => exact hchange db.committed
    | owning _ _ hheld => exact absurd hheld hnot
  refine ⟨hlocks, ?_, ?_, h.others htx hpart (Db.commit_holder ..) (Db.commit_txs ..) (by simp)⟩
  · rw [Db.commit_committed, Db.commit_order, h.locks.commits_commit htx hactive]
    cases hstanding with
    | foreign htouches hchange =>
        rw [Db.view, hchange, h.committed]
        simp [htouches]
    | waiting htouches hwaiting => exact absurd hnext (hguards.waits htouches hwaiting)
    | owning own htouches hheld howning hchange =>
        have hview : part (db.view t) = own := hchange db.committed rfl
        rw [← hview] at howning
        rw [hguards.commits htouches howning hnext, if_pos ⟨hheld, htouches⟩, List.foldl_append,
          h.committed]
        rfl
  · intro other found hfound hstatus htouches
    rcases txs_update_cases (Db.commit_txs ..) hfound with ⟨rfl, rfl⟩ | ⟨-, hfound⟩
    · cases hstanding with
      | foreign htouches' => simp [htouches'] at htouches
      | waiting htouches hwaiting => exact absurd hnext (hguards.waits htouches hwaiting)
      | owning _ _ hheld =>
          obtain ⟨-, front, hfront⟩ := h.locks.held other hheld
          simp [hfront]
    · exact h.complete other found hfound hstatus htouches

theorem Serial.moved (hguards : Guards code key part touches effect Waiting Owning)
    {move : RowLock.Move Req} (h : Serial key part touches effect Waiting Owning first db)
    (hmoved : Moved code db move db') :
    Serial key part touches effect Waiting Owning first db' := by
  cases hmoved with
  | same => exact h
  | begun tx request htx => exact h.begun hguards htx request
  | statement tx t locks change phase htx hactive hnext hfree =>
      exact h.statement hguards htx hactive hnext hfree
  | committed tx t htx hactive hnext => exact h.commit hguards htx hactive hnext
  | rolledBack _ t htx hactive => exact h.rolledBack htx hactive

-- Whatever the other transactions do and however they interleave.
theorem serial_run (hguards : Guards code key part touches effect Waiting Owning)
    (moves : List (RowLock.Move Req)) (data : σ) :
    Serial key part touches effect Waiting Owning (part data) (run code moves (Db.start data)) := by
  refine run_induction ⟨locks_start data key, rfl, by simp [Db.start], by simp [Db.start]⟩ ?_ moves
  intro db move db' h hmoved
  exact h.moved hguards hmoved

end Serial

section Requests

variable {σ Key Req Phase : Type} {db db' : Db σ Key Req Phase} {Q : Req → Prop}

-- What is known of every request that begins is known of every transaction.
theorem request_put {tx : Nat} {t' : Tx σ Req Phase} (h : ∀ tx t, db.txs tx = some t → Q t.request)
    (htxs : db'.txs = Function.update db.txs tx (some t')) (ht' : Q t'.request) (other : Nat)
    (t : Tx σ Req Phase) (hother : db'.txs other = some t) : Q t.request := by
  rcases txs_update_cases htxs hother with ⟨rfl, rfl⟩ | ⟨-, hother⟩
  · exact ht'
  · exact h other t hother

variable [DecidableEq Key] {code : Code σ Key Req Phase}

theorem request_moved {move : RowLock.Move Req} (h : ∀ tx t, db.txs tx = some t → Q t.request)
    (hmove : ∀ tx request, move = .begin tx request → Q request) (hmoved : Moved code db move db') :
    ∀ tx t, db'.txs tx = some t → Q t.request := by
  cases hmoved with
  | same => exact h
  | begun tx request => exact request_put h (Db.put_txs ..) (hmove tx request rfl)
  | statement tx t _ _ _ htx => exact request_put h (Db.statement_txs ..) (h tx t htx)
  | committed tx t htx => exact request_put h (Db.commit_txs ..) (h tx t htx)
  | rolledBack _ t htx => exact request_put h (Db.rollback_txs ..) (h _ t htx)

theorem request_run {moves : List (RowLock.Move Req)}
    (h : ∀ tx t, db.txs tx = some t → Q t.request)
    (hmoves : ∀ tx request, .begin tx request ∈ moves → Q request) :
    ∀ tx t, (run code moves db).txs tx = some t → Q t.request := by
  induction moves generalizing db with
  | nil => exact h
  | cons move moves ih =>
      refine ih (request_moved h (fun tx request he => hmoves tx request (by simp [he]))
        (moved_move db move)) ?_
      exact fun tx request hmem => hmoves tx request (List.mem_cons_of_mem _ hmem)

end Requests

section Failures

variable {σ Key Req Phase : Type} {db db' : Db σ Key Req Phase} {tx : Nat}

def Db.HasCommitted (db : Db σ Key Req Phase) (tx : Nat) : Prop :=
  ∃ t, db.txs tx = some t ∧ t.status = .committed

theorem Db.HasCommitted.put {t' : Tx σ Req Phase} {other : Nat} (h : db.HasCommitted tx)
    (hother : ∀ t, db.txs other = some t → t.status = .active)
      (htxs : db'.txs = Function.update db.txs other (some t')) :
    db'.HasCommitted tx := by
  obtain ⟨t, ht, hstatus⟩ := h
  have hne : tx ≠ other := by
    rintro rfl
    simp [hother t ht] at hstatus
  exact ⟨t, by rw [htxs, Function.update_of_ne hne, ht], hstatus⟩

variable [DecidableEq Key] {code : Code σ Key Req Phase}

theorem Db.HasCommitted.moved {move : RowLock.Move Req} (h : db.HasCommitted tx)
    (hmoved : Moved code db move db') :
    db'.HasCommitted tx := by
  cases hmoved with
  | same => exact h
  | begun other request hother => exact h.put (by simp [hother]) (Db.put_txs ..)
  | statement other t locks change phase hother hactive =>
      exact h.put (by simp [hother, hactive]) (Db.statement_txs ..)
  | committed other t hother hactive => exact h.put (by simp [hother, hactive]) (Db.commit_txs ..)
  | rolledBack _ t hother hactive => exact h.put (by simp [hother, hactive]) (Db.rollback_txs ..)

theorem Db.HasCommitted.run (h : db.HasCommitted tx) (moves : List (RowLock.Move Req)) :
    (Transactions.run code moves db).HasCommitted tx := by
  induction moves generalizing db with
  | nil => exact h
  | cons move moves ih => exact ih (h.moved (moved_move db move))

-- Only a commit changes the committed data.
theorem committed_moved {move : RowLock.Move Req} (hmoved : Moved code db move db') :
    db'.committed = db.committed ∨ db'.HasCommitted (mover move) := by
  cases hmoved with
  | same => exact .inl rfl
  | begun tx request => exact .inl rfl
  | statement tx t => exact .inl rfl
  | committed tx t => exact .inr ⟨_, Function.update_self .., rfl⟩
  | rolledBack _ t => exact .inl rfl

-- A transaction that does not commit in the end has changed nothing on the way.
theorem unchanged_of_not_committed {front back : List (RowLock.Move Req)} {move : RowLock.Move Req}
    (h : ¬ (run code (front ++ move :: back) db).HasCommitted (mover move)) :
    (run code (front ++ [move]) db).committed = (run code front db).committed := by
  rw [run_append] at h ⊢
  refine (committed_moved (moved_move _ move)).resolve_right fun hcommitted => h ?_
  exact hcommitted.run back

end Failures

end Effects.Transactions
