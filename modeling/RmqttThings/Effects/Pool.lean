import RmqttThings.Effects.Prog
import Mathlib.Order.Defs.PartialOrder

namespace Effects

-- A thread serves one request; `program` is what is left of its code.
structure Thread (Req : Type) {Op : Type} (Ans : Op → Type) (ρ : Type) where
  request : Req
  program : Prog Ans ρ

inductive Move (Req : Type) where
  | spawn (request : Req)
  | step (thread : Nat)

-- The threads share one state and take turns at their operations. The log is a
-- ghost: it lists every performed operation with its thread, newest first.
structure Pool (σ Req : Type) {Op : Type} (Ans : Op → Type) (ρ : Type) where
  state : σ
  threads : List (Thread Req Ans ρ)
  log : List (Nat × Event Ans)

namespace Pool

variable {Op Req ρ σ : Type} {Ans : Op → Type}

-- The events of one thread, newest first.
def history (thread : Nat) (log : List (Nat × Event Ans)) : List (Event Ans) :=
  log.filterMap fun entry => if entry.1 = thread then some entry.2 else none

@[simp] theorem history_nil (thread : Nat) : history thread ([] : List (Nat × Event Ans)) = [] :=
  rfl

@[simp] theorem history_cons_self (thread : Nat) (event : Event Ans)
    (log : List (Nat × Event Ans)) :
    history thread ((thread, event) :: log) = event :: history thread log := by
  simp [history]

theorem history_cons_ne {thread other : Nat} (h : other ≠ thread) (event : Event Ans)
    (log : List (Nat × Event Ans)) :
    history thread ((other, event) :: log) = history thread log := by
  simp [history, h]

theorem mem_history {thread : Nat} {event : Event Ans} {log : List (Nat × Event Ans)} :
    event ∈ history thread log ↔ (thread, event) ∈ log := by
  simp only [history, List.mem_filterMap]
  constructor
  · rintro ⟨⟨other, found⟩, hmem, he⟩
    split_ifs at he with h
    simp only [Option.some.injEq] at he
    subst h he
    exact hmem
  · exact fun h => ⟨(thread, event), h, by simp⟩

-- The newest event of a thread, where it stands in the log.
theorem history_eq_cons {thread : Nat} {event : Event Ans} {past : List (Event Ans)}
    {log : List (Nat × Event Ans)} (h : history thread log = event :: past) :
    ∃ later earlier, log = later ++ (thread, event) :: earlier ∧ history thread later = [] ∧
      history thread earlier = past := by
  induction log with
  | nil => simp at h
  | cons entry log ih =>
      obtain ⟨other, found⟩ := entry
      by_cases he : other = thread
      · subst he
        rw [history_cons_self, List.cons.injEq] at h
        exact ⟨[], log, by simp [h.1], rfl, h.2⟩
      · rw [history_cons_ne he] at h
        obtain ⟨later, earlier, rfl, hlater, hearlier⟩ := ih h
        exact ⟨(other, found) :: later, earlier, rfl, by rw [history_cons_ne he, hlater], hearlier⟩

@[simp] theorem history_append (thread : Nat) (later earlier : List (Nat × Event Ans)) :
    history thread (later ++ earlier) = history thread later ++ history thread earlier :=
  List.filterMap_append

theorem history_suffix (thread : Nat) {earlier log : List (Nat × Event Ans)} (h : earlier <:+ log) :
    history thread earlier <:+ history thread log := by
  obtain ⟨later, rfl⟩ := h
  exact ⟨history thread later, (history_append thread later earlier).symm⟩

theorem countP_history_le (thread : Nat) (select : Event Ans → Bool)
    (log : List (Nat × Event Ans)) :
    (history thread log).countP select ≤ log.countP fun entry => select entry.2 := by
  induction log with
  | nil => exact Nat.le_refl _
  | cons entry log ih =>
      obtain ⟨other, event⟩ := entry
      by_cases ht : other = thread
      · subst ht
        rw [history_cons_self, List.countP_cons, List.countP_cons]
        exact Nat.add_le_add_right ih _
      · rw [history_cons_ne ht, List.countP_cons]
        omega

-- Events that only one thread performs are found in its history.
theorem map_filter_log (thread : Nat) (select : Event Ans → Bool) (log : List (Nat × Event Ans))
    (h : ∀ entry ∈ log, select entry.2 = true → entry.1 = thread) :
    (log.filter fun entry => select entry.2).map (·.2) = (history thread log).filter select := by
  induction log with
  | nil => rfl
  | cons entry log ih =>
      obtain ⟨other, event⟩ := entry
      have htail := ih fun entry hmem => h entry (List.mem_cons_of_mem _ hmem)
      by_cases hs : select event = true
      · have ht : other = thread := h (other, event) List.mem_cons_self hs
        subst ht
        simp [hs, htail]
      · by_cases ht : other = thread
        · subst ht
          simp [hs, htail]
        · rw [history_cons_ne ht]
          simp [hs, htail]

-- Any event of a thread, where it stands in the log.
theorem history_eq_append {thread : Nat} {event : Event Ans} (newer : List (Event Ans))
    {past : List (Event Ans)}
    {log : List (Nat × Event Ans)} (h : history thread log = newer ++ event :: past) :
    ∃ later earlier, log = later ++ (thread, event) :: earlier ∧ history thread later = newer ∧
      history thread earlier = past := by
  induction newer generalizing log with
  | nil => exact history_eq_cons h
  | cons first newer ih =>
      obtain ⟨later, rest, rfl, hlater, hrest⟩ := history_eq_cons h
      obtain ⟨between, earlier, rfl, hbetween, hearlier⟩ := ih hrest
      refine ⟨later ++ (thread, first) :: between, earlier, by simp, ?_, hearlier⟩
      rw [history_append, hlater, history_cons_self, hbetween, List.nil_append]

-- Two places of one log: they are the same, or one of them is before the other.
theorem places_of_append_eq {α : Type} {later later' earlier earlier' : List α} {entry entry' : α}
    (h : later ++ entry :: earlier = later' ++ entry' :: earlier') :
    (later = later' ∧ entry = entry' ∧ earlier = earlier') ∨
      (∃ between, later' = later ++ entry :: between ∧ earlier = between ++ entry' :: earlier') ∨
      (∃ between, later = later' ++ entry' :: between ∧ earlier' = between ++ entry ::
        earlier) := by
  rcases List.append_eq_append_iff.mp h with ⟨between, hl, he⟩ | ⟨between, hl, he⟩
  · cases between with
    | nil => simp_all
    | cons first between =>
        rw [List.cons_append, List.cons.injEq] at he
        exact .inr (.inl ⟨between, he.1 ▸ hl, he.2⟩)
  · cases between with
    | nil => simp_all
    | cons first between =>
        rw [List.cons_append, List.cons.injEq] at he
        exact .inr (.inr ⟨between, he.1 ▸ hl, he.2⟩)

theorem same_or_mem_of_append_eq {α : Type} {later later' earlier earlier' : List α}
    {entry entry' : α} (h : later ++ entry :: earlier = later' ++ entry' :: earlier') :
    (later = later' ∧ entry = entry' ∧ earlier = earlier') ∨ (entry ∈ later' ∧ entry' ∈ earlier) ∨
      (entry' ∈ later ∧ entry ∈ earlier') := by
  rcases places_of_append_eq h with hsame | ⟨between, rfl, rfl⟩ | ⟨between, rfl, rfl⟩
  · exact .inl hsame
  · exact .inr (.inl ⟨by simp, by simp⟩)
  · exact .inr (.inr ⟨by simp, by simp⟩)

theorem same_or_suffix_of_append_eq {α : Type} {later later' earlier earlier' : List α}
    {entry entry' : α} (h : later ++ entry :: earlier = later' ++ entry' :: earlier') :
    (later = later' ∧ entry = entry' ∧ earlier = earlier') ∨ (entry :: earlier) <:+ earlier' ∨
      (entry' :: earlier') <:+ earlier := by
  rcases places_of_append_eq h with hsame | ⟨between, -, rfl⟩ | ⟨between, -, rfl⟩
  · exact .inl hsame
  · exact .inr (.inr ⟨between, rfl⟩)
  · exact .inr (.inl ⟨between, rfl⟩)

theorem suffix_of_eq_append {α : Type} {log later earlier : List α} {entry : α}
    (h : log = later ++ entry :: earlier) :
    earlier <:+ log := ⟨later ++ [entry], by simp [h]⟩

def init (state : σ) : Pool σ Req Ans ρ := ⟨state, [], []⟩

-- No request is in progress.
def Idle (pool : Pool σ Req Ans ρ) : Prop := ∀ served ∈ pool.threads, served.program.isDone = true

instance (pool : Pool σ Req Ans ρ) : Decidable pool.Idle :=
  inferInstanceAs (Decidable (∀ served ∈ pool.threads, _))

section Play

variable (sem : (op : Op) → σ → Ans op × σ) (code : Req → Prog Ans ρ)

def spawned (pool : Pool σ Req Ans ρ) (request : Req) : Pool σ Req Ans ρ :=
  { pool with threads := pool.threads ++ [⟨request, code request⟩] }

def performed (pool : Pool σ Req Ans ρ) (thread : Nat) (request : Req) (op : Op)
    (next : Ans op → Prog Ans ρ) : Pool σ Req Ans ρ where
  state := (sem op pool.state).2
  threads := pool.threads.set thread ⟨request, next (sem op pool.state).1⟩
  log := (thread, ⟨op, (sem op pool.state).1⟩) :: pool.log

-- A step of a thread that has returned, or that does not exist, does nothing.
def move (pool : Pool σ Req Ans ρ) : Move Req → Pool σ Req Ans ρ
  | .spawn request => pool.spawned code request
  | .step thread =>
      match pool.threads[thread]? with
      | some ⟨request, .call op next⟩ => pool.performed sem thread request op next
      | _ => pool

def play (moves : List (Move Req)) (state : σ) : Pool σ Req Ans ρ :=
  moves.foldl (move sem code) (init state)

@[simp] theorem play_nil (state : σ) : play sem code [] state = init state := rfl

theorem play_append (first second : List (Move Req)) (state : σ) :
    play sem code (first ++ second) state = second.foldl (move sem code)
      (play sem code first state) :=
  List.foldl_append ..

theorem play_snoc (moves : List (Move Req)) (last : Move Req) (state : σ) :
    play sem code (moves ++ [last]) state = (play sem code moves state).move sem code last := by
  simp [play_append]

-- Everything a move can do.
theorem move_cases (pool : Pool σ Req Ans ρ) (step : Move Req) :
    (∃ request, step = .spawn request ∧ pool.move sem code step = pool.spawned code request) ∨
    (∃ thread request op next, step = .step thread ∧
      pool.threads[thread]? = some ⟨request, .call op next⟩ ∧
      pool.move sem code step = pool.performed sem thread request op next) ∨
    pool.move sem code step = pool := by
  cases step with
  | spawn request => exact .inl ⟨request, rfl, rfl⟩
  | step thread =>
      simp only [move]
      split
      · rename_i request op next h
        exact .inr (.inl ⟨thread, request, op, next, rfl, h, rfl⟩)
      · exact .inr (.inr rfl)

-- What holds at the start and is kept by every spawn and every operation holds
-- from then on, whatever the order of the moves.
theorem foldl_invariant (inv : Pool σ Req Ans ρ → Prop)
    (hspawn : ∀ pool request, inv pool → inv (pool.spawned code request))
    (hperform : ∀ pool thread request op next, pool.threads[thread]? =
      some ⟨request, .call op next⟩ → inv pool → inv (pool.performed sem thread request op next))
    (moves : List (Move Req)) (pool : Pool σ Req Ans ρ) (hstart : inv pool) :
    inv (moves.foldl (move sem code) pool) := by
  induction moves generalizing pool with
  | nil => exact hstart
  | cons step moves ih =>
      rw [List.foldl_cons]
      rcases move_cases sem code pool step with
        ⟨request, -, he⟩ | ⟨thread, request, op, next, -, ht, he⟩ | he
      · exact ih _ (he ▸ hspawn pool request hstart)
      · exact ih _ (he ▸ hperform pool thread request op next ht hstart)
      · rw [he]
        exact ih pool hstart

theorem play_invariant (inv : Pool σ Req Ans ρ → Prop) {state : σ} (hinit : inv (init state))
    (hspawn : ∀ pool request, inv pool → inv (pool.spawned code request))
    (hperform : ∀ pool thread request op next, pool.threads[thread]? =
      some ⟨request, .call op next⟩ → inv pool → inv (pool.performed sem thread request op next))
    (moves : List (Move Req)) : inv (play sem code moves state) :=
  foldl_invariant sem code inv hspawn hperform moves (init state) hinit

-- The log is the run: the state is what its operations make of the initial one.
def replay (state : σ) : List (Nat × Event Ans) → σ
  | [] => state
  | entry :: earlier => (sem entry.2.1 (replay state earlier)).2

theorem state_eq_replay (moves : List (Move Req)) (state : σ) :
    (play sem code moves state).state = replay sem state (play sem code moves state).log := by
  apply play_invariant sem code (fun pool => pool.state = replay sem state pool.log) rfl
  · exact fun _ _ h => h
  · intro pool thread request op next _ h
    simp only [performed, replay, h]

theorem replay_append (state : σ) (later earlier : List (Nat × Event Ans)) :
    replay sem state (later ++ earlier) = replay sem (replay sem state earlier) later := by
  induction later with
  | nil => rfl
  | cons entry later ih => simp only [List.cons_append, replay, ih]

-- What a run has changed, one of its entries has changed.
theorem exists_change {β : Type} (part : σ → β) {state : σ} {log : List (Nat × Event Ans)}
    (h : part (replay sem state log) ≠ part state) :
    ∃ later entry earlier, log = later ++ entry :: earlier ∧
      part (replay sem state (entry :: earlier)) ≠ part (replay sem state earlier) := by
  induction log with
  | nil => exact absurd rfl h
  | cons entry log ih =>
      by_cases hsame : part (replay sem state (entry :: log)) = part (replay sem state log)
      · rw [hsame] at h
        obtain ⟨later, last, earlier, rfl, hchange⟩ := ih h
        exact ⟨entry :: later, last, earlier, rfl, hchange⟩
      · exact ⟨[], entry, log, rfl, hsame⟩

-- What no operation makes smaller only grows along a run.
theorem replay_mono {β : Type} [Preorder β] (measure : σ → β)
    (hstep : ∀ op state, measure state ≤ measure (sem op state).2)
    (state : σ) {earlier log : List (Nat × Event Ans)} (h : earlier <:+ log) :
    measure (replay sem state earlier) ≤ measure (replay sem state log) := by
  obtain ⟨later, rfl⟩ := h
  induction later with
  | nil => exact le_rfl
  | cons entry later ih => exact le_trans ih (hstep _ _)

-- A part of the state is as the last entry that touches it has left it.
theorem replay_last {β : Type} (state : σ) (log : List (Nat × Event Ans))
    (touches : Nat × Event Ans → Prop)
    (part : σ → β) (hframe : ∀ later entry earlier, log = later ++ entry :: earlier →
      ¬touches entry →
      part (replay sem state (entry :: earlier)) = part (replay sem state earlier)) :
    ((∀ entry ∈ log, ¬touches entry) ∧ part (replay sem state log) = part state) ∨
      ∃ later entry earlier, log = later ++ entry :: earlier ∧ touches entry ∧
        (∀ other ∈ later, ¬touches other) ∧
        part (replay sem state log) = part (replay sem state (entry :: earlier)) := by
  induction log with
  | nil => exact .inl ⟨by simp, rfl⟩
  | cons entry log ih =>
      by_cases ht : touches entry
      · exact .inr ⟨[], entry, log, rfl, ht, by simp, rfl⟩
      · have hsame := hframe [] entry log rfl ht
        have htail := ih fun later entry earlier he => hframe (_ :: later) entry earlier
            (by rw [he]; rfl)
        rcases htail with ⟨hnone, hpart⟩ | ⟨later, last, earlier, rfl, htouch, hlater, hpart⟩
        · exact .inl ⟨by simpa [ht] using hnone, hsame.trans hpart⟩
        · exact .inr ⟨entry :: later, last, earlier, rfl, htouch, by simpa [ht] using hlater,
            hsame.trans hpart⟩

-- Every answer is the one that the state of that moment gives.
def Answered (state : σ) (log : List (Nat × Event Ans)) : Prop :=
  ∀ later entry earlier, log = later ++ entry :: earlier →
    entry.2.2 = (sem entry.2.1 (replay sem state earlier)).1

variable {sem} in
theorem Answered.of_append {state : σ} {later earlier : List (Nat × Event Ans)}
    (h : Answered sem state (later ++ earlier)) : Answered sem state earlier := by
  intro newer entry rest he
  exact h (later ++ newer) entry rest (by rw [he, List.append_assoc])

variable {sem} in
theorem Answered.tail {state : σ} {entry : Nat × Event Ans} {earlier : List (Nat × Event Ans)}
    (h : Answered sem state (entry :: earlier)) : Answered sem state earlier :=
  Answered.of_append (show Answered sem state ([entry] ++ earlier) from h)

theorem answered_play (moves : List (Move Req)) (state : σ) :
    Answered sem state (play sem code moves state).log := by
  have h : (play sem code moves state).state = replay sem state (play sem code moves state).log ∧
      Answered sem state (play sem code moves state).log := by
    apply play_invariant sem code fun pool => pool.state = replay sem state pool.log ∧
      Answered sem state pool.log
    · exact ⟨rfl, fun later entry earlier h => by simp [init] at h⟩
    · exact fun _ _ h => h
    · rintro pool thread request op next _ ⟨hstate, hanswered⟩
      refine ⟨by simp only [performed, replay, hstate], ?_⟩
      intro later entry earlier he
      cases later with
      | nil =>
          simp only [performed, List.nil_append, List.cons.injEq] at he
          obtain ⟨rfl, rfl⟩ := he
          simp only [hstate]
      | cons first later =>
          simp only [performed, List.cons_append, List.cons.injEq] at he
          exact hanswered later entry earlier he.2
  exact h.2

theorem log_suffix (first second : List (Move Req)) (state : σ) :
    (play sem code first state).log <:+ (play sem code (first ++ second) state).log := by
  rw [play_append]
  apply foldl_invariant sem code fun pool => (play sem code first state).log <:+ pool.log
  · exact fun _ _ h => h
  · exact fun pool thread request op next _ h => h.trans (List.suffix_cons _ _)
  · exact List.suffix_rfl

-- Every stage of a log was the log at some moment of the run.
theorem moment_of_suffix (moves : List (Move Req)) (state : σ) {earlier : List (Nat × Event Ans)}
    (h : earlier <:+ (play sem code moves state).log) :
    ∃ first, first <+: moves ∧ (play sem code first state).log = earlier := by
  induction moves using List.reverseRecOn with
  | nil => exact ⟨[], List.prefix_rfl, (List.suffix_nil.mp h).symm⟩
  | append_singleton moves step ih =>
      have hbefore : earlier <:+ (play sem code moves state).log →
          ∃ first, first <+: moves ++ [step] ∧ (play sem code first state).log = earlier := by
        intro hsuffix
        obtain ⟨first, hfirst, hlog⟩ := ih hsuffix
        exact ⟨first, hfirst.trans (List.prefix_append _ _), hlog⟩
      have hsnoc := play_snoc sem code moves step state
      rcases move_cases sem code (play sem code moves state) step with
        ⟨request, -, he⟩ | ⟨thread, request, op, next, -, -, he⟩ | he
      · rw [hsnoc, he] at h
        exact hbefore h
      · rw [hsnoc, he] at h
        rcases List.suffix_cons_iff.mp h with hnow | hsuffix
        · exact ⟨moves ++ [step], List.prefix_rfl, by rw [hsnoc, he]; exact hnow.symm⟩
        · exact hbefore hsuffix
      · rw [hsnoc, he] at h
        exact hbefore h

theorem request_stable (first second : List (Move Req)) (state : σ) (thread : Nat)
    (served : Thread Req Ans ρ) (h : (play sem code first state).threads[thread]? = some served) :
    ∃ program, (play sem code (first ++ second) state).threads[thread]? =
      some ⟨served.request, program⟩ := by
  rw [play_append]
  apply foldl_invariant sem code fun pool => ∃ program,
    pool.threads[thread]? = some ⟨served.request, program⟩
  · rintro pool request ⟨program, hp⟩
    refine ⟨program, ?_⟩
    have hl := (List.getElem?_eq_some_iff.mp hp).1
    simpa [spawned, List.getElem?_append_left hl] using hp
  · rintro pool other request op next ho ⟨program, hp⟩
    by_cases he : other = thread
    · subst he
      rw [ho] at hp
      simp only [Option.some.injEq, Thread.mk.injEq] at hp
      have hl := (List.getElem?_eq_some_iff.mp ho).1
      refine ⟨next (sem op pool.state).1, ?_⟩
      simp [performed, List.getElem?_set_self hl, hp.1]
    · exact ⟨program, by simpa [performed, List.getElem?_set_ne he] using hp⟩
  · exact ⟨served.program, h⟩

theorem request_spawned (moves : List (Move Req)) (state : σ) (thread : Nat)
    (served : Thread Req Ans ρ) (h : (play sem code moves state).threads[thread]? = some served) :
    .spawn served.request ∈ moves := by
  induction moves using List.reverseRecOn generalizing thread served with
  | nil => simp [init] at h
  | append_singleton moves step ih =>
      rw [play_snoc] at h
      rcases move_cases sem code (play sem code moves state) step with
        ⟨request, rfl, he⟩ | ⟨other, request, op, next, -, ho, he⟩ | he
      · rw [he] at h
        rcases List.mem_append.mp (List.mem_of_getElem? h) with hold | hnew
        · obtain ⟨index, hindex⟩ := List.mem_iff_getElem?.mp hold
          exact List.mem_append_left _ (ih index served hindex)
        · rw [List.mem_singleton.mp hnew]
          simp
      · rw [he] at h
        rcases List.mem_or_eq_of_mem_set (List.mem_of_getElem? h) with hold | rfl
        · obtain ⟨index, hindex⟩ := List.mem_iff_getElem?.mp hold
          exact List.mem_append_left _ (ih index served hindex)
        · have hcaller := ih other ⟨request, .call op next⟩ ho
          exact List.mem_append_left _ hcaller
      · rw [he] at h
        exact List.mem_append_left _ (ih thread served h)

-- A thread that has not been spawned has no events.
theorem history_fresh (moves : List (Move Req)) (state : σ) (thread : Nat)
    (h : (play sem code moves state).threads.length ≤ thread) :
    history thread (play sem code moves state).log = [] := by
  revert h
  apply play_invariant sem code fun pool => pool.threads.length ≤ thread →
    history thread pool.log = []
  · exact fun _ => rfl
  · intro pool request hp hl
    simp only [spawned, List.length_append, List.length_singleton] at hl
    exact hp (by omega)
  · intro pool other request op next ho hp hl
    have hlt := (List.getElem?_eq_some_iff.mp ho).1
    simp only [performed, List.length_set] at hl ⊢
    rw [history_cons_ne (by omega)]
    exact hp hl

-- The moment at which a thread has performed its newest operation.
theorem moment_of_history (moves : List (Move Req)) (state : σ) {thread : Nat}
    {served : Thread Req Ans ρ} {event : Event Ans} {past : List (Event Ans)}
    (h : (play sem code moves state).threads[thread]? = some served)
    (hhistory : history thread (play sem code moves state).log = event :: past) :
    ∃ first program earlier, first <+: moves ∧
      (play sem code first state).threads[thread]? = some ⟨served.request, program⟩ ∧
      (play sem code first state).log = (thread, event) :: earlier ∧ history thread earlier = past ∧
      earlier <:+ (play sem code moves state).log := by
  obtain ⟨later, earlier, hlog, -, hearlier⟩ := history_eq_cons hhistory
  obtain ⟨first, ⟨rest, rfl⟩, hfirst⟩ := moment_of_suffix sem code moves state
    (show (thread, event) :: earlier <:+ _ from ⟨later, hlog.symm⟩)
  have hspawned : thread < (play sem code first state).threads.length := by
    by_contra hnot
    have hnone := history_fresh sem code first state thread (Nat.not_lt.mp hnot)
    simp [hfirst] at hnone
  obtain ⟨old, hold⟩ : ∃ old, (play sem code first state).threads[thread]? = some old :=
    ⟨_, List.getElem?_eq_getElem hspawned⟩
  obtain ⟨program, hnow⟩ := request_stable sem code first rest state thread old hold
  rw [h, Option.some.injEq] at hnow
  refine ⟨first, old.program, earlier, List.prefix_append _ _, ?_, hfirst, hearlier, ?_⟩
  · rw [hold, hnow]
  · exact suffix_of_eq_append hlog

-- Each thread is where its code has come with the answers that it has got.
theorem reaches_play (moves : List (Move Req)) (state : σ) (thread : Nat)
    (served : Thread Req Ans ρ) (h : (play sem code moves state).threads[thread]? = some served) :
    (code served.request).Reaches (history thread (play sem code moves state).log)
      served.program := by
  induction moves using List.reverseRecOn generalizing thread served with
  | nil => simp [init] at h
  | append_singleton moves step ih =>
      have hsnoc := play_snoc sem code moves step state
      generalize hpool : play sem code moves state = pool at *
      rcases move_cases sem code pool step with
        ⟨request, -, he⟩ | ⟨other, request, op, next, -, ho, he⟩ | he
      · rw [hsnoc, he] at h ⊢
        by_cases hl : thread < pool.threads.length
        · exact ih thread served (by simpa [spawned, List.getElem?_append_left hl] using h)
        · have hfresh := history_fresh sem code moves state thread (by rw [hpool]; omega)
          rw [hpool] at hfresh
          have ht : thread = pool.threads.length := by
            have := (List.getElem?_eq_some_iff.mp h).1
            simp only [spawned, List.length_append, List.length_singleton] at this
            omega
          subst ht
          simp only [spawned, List.getElem?_concat_length, Option.some.injEq] at h
          subst h
          simp only [spawned, hfresh]
          rfl
      · rw [hsnoc, he] at h ⊢
        by_cases ht : other = thread
        · subst ht
          have hl := (List.getElem?_eq_some_iff.mp ho).1
          simp only [performed, List.getElem?_set_self hl, Option.some.injEq] at h
          subst h
          simp only [performed, history_cons_self]
          exact ⟨next, ih other ⟨request, .call op next⟩ ho, rfl⟩
        · simp only [performed, List.getElem?_set_ne ht] at h
          simp only [performed, history_cons_ne ht]
          exact ih thread served h
      · rw [hsnoc, he] at h ⊢
        exact ih thread served h

section Spec

variable {allowed : Req → List (Event Ans) → Op → Prop}
  {post : Req → ρ → List (Event Ans) → Prop}

-- The local rule: a property of each program under all answers holds of each
-- thread under all interleavings.
theorem spec_play (hcode : ∀ request, Prog.Spec (allowed request) (post request) (code request) [])
    (moves : List (Move Req)) (state : σ) (thread : Nat) (served : Thread Req Ans ρ)
    (h : (play sem code moves state).threads[thread]? = some served) :
    Prog.Spec (allowed served.request) (post served.request) served.program
      (history thread (play sem code moves state).log) :=
  (reaches_play sem code moves state thread served h).spec (hcode served.request)

-- Every logged operation was allowed by its thread's past of that moment.
theorem allowed_of_log
    (hcode : ∀ request, Prog.Spec (allowed request) (post request) (code request) [])
    (moves : List (Move Req)) (state : σ) (later earlier : List (Nat × Event Ans)) (thread : Nat)
    (event : Event Ans) (h : (play sem code moves state).log = later ++ (thread, event) ::
      earlier) :
    ∃ served, (play sem code moves state).threads[thread]? = some served ∧
      allowed served.request (history thread earlier) event.1 := by
  induction moves using List.reverseRecOn generalizing later with
  | nil => simp [init] at h
  | append_singleton moves step ih =>
      have hkeep : ∀ served, (play sem code moves state).threads[thread]? = some served →
          allowed served.request (history thread earlier) event.1 →
          ∃ served, (play sem code (moves ++ [step]) state).threads[thread]? = some served ∧
            allowed served.request (history thread earlier) event.1 := by
        intro served hs ha
        obtain ⟨program, hp⟩ := request_stable sem code moves [step] state thread served hs
        exact ⟨_, hp, ha⟩
      rw [play_snoc] at h
      rcases move_cases sem code (play sem code moves state) step with
        ⟨request, -, he⟩ | ⟨other, request, op, next, -, ho, he⟩ | he
      · rw [he] at h
        obtain ⟨served, hs, ha⟩ := ih later h
        exact hkeep served hs ha
      · rw [he] at h
        cases later with
        | nil =>
            simp only [performed, List.nil_append, List.cons.injEq, Prod.mk.injEq] at h
            obtain ⟨⟨rfl, rfl⟩, rfl⟩ := h
            have hspec := spec_play sem code hcode moves state other _ ho
            exact hkeep _ ho hspec.1
        | cons first later =>
            simp only [performed, List.cons_append, List.cons.injEq] at h
            obtain ⟨served, hs, ha⟩ := ih later h.2
            exact hkeep served hs ha
      · rw [he] at h
        obtain ⟨served, hs, ha⟩ := ih later h
        exact hkeep served hs ha

end Spec

-- Entry by entry: the thread was allowed to do this, and got the answer of that moment.
def Justified (rule : Nat → List (Event Ans) → Op → Prop) (state : σ) :
    List (Nat × Event Ans) → Prop
  | [] => True
  | (thread, event) :: earlier => rule thread (history thread earlier) event.1 ∧
      event.2 = (sem event.1 (replay sem state earlier)).1 ∧ Justified rule state earlier

variable {sem code} in
theorem Justified.suffix {rule : Nat → List (Event Ans) → Op → Prop} {state : σ}
    {log earlier : List (Nat × Event Ans)} (h : Justified sem rule state log)
    (hs : earlier <:+ log) :
    Justified sem rule state earlier := by
  obtain ⟨later, rfl⟩ := hs
  induction later with
  | nil => exact h
  | cons entry later ih => exact ih h.2.2

variable {sem code} in
theorem Justified.mono {rule weaker : Nat → List (Event Ans) → Op → Prop} {state : σ}
    {log : List (Nat × Event Ans)} (h : Justified sem rule state log)
    (himp : ∀ thread past op, rule thread past op → weaker thread past op) :
    Justified sem weaker state log := by
  induction log with
  | nil => trivial
  | cons entry log ih => exact ⟨himp _ _ _ h.1, h.2.1, ih h.2.2⟩

theorem justified_play {allowed : Req → List (Event Ans) → Op → Prop}
    {post : Req → ρ → List (Event Ans) → Prop}
    (hcode : ∀ request, Prog.Spec (allowed request) (post request) (code request) [])
    (moves : List (Move Req)) (state : σ) :
    Justified sem (fun thread past op => ∃ served, (play sem code moves state).threads[thread]? =
      some served ∧ allowed served.request past op) state (play sem code moves state).log := by
  have hall : ∀ earlier later, (play sem code moves state).log = later ++ earlier →
      Justified sem (fun thread past op => ∃ served, (play sem code moves state).threads[thread]? =
        some served ∧ allowed served.request past op) state earlier := by
    intro earlier
    induction earlier with
    | nil => exact fun _ _ => trivial
    | cons entry earlier ih =>
        intro later he
        refine ⟨allowed_of_log sem code hcode moves state later earlier entry.1 entry.2 he,
          answered_play sem code moves state later entry earlier he,
            ih (later ++ [entry]) (by simp [he])⟩
  exact hall _ [] rfl

-- A thread spawned after `before` does everything after the log of `before`.
theorem suffix_of_fresh (before after : List (Move Req)) (state : σ)
    (thread : Nat) (hfresh : (play sem code before state).threads.length ≤ thread)
    (later earlier : List (Nat × Event Ans)) (event : Event Ans)
    (h : (play sem code (before ++ after) state).log = later ++ (thread, event) :: earlier) :
    (play sem code before state).log <:+ earlier := by
  have hnone := history_fresh sem code before state thread hfresh
  have hlog := log_suffix sem code before after state
  have hearlier : earlier <:+ (play sem code (before ++ after) state).log :=
    ⟨later ++ [(thread, event)], by simp [h]⟩
  rcases List.suffix_or_suffix_of_suffix hlog hearlier with hs | hs
  · exact hs
  · obtain ⟨middle, hm⟩ := hs
    rcases List.eq_nil_or_concat middle with rfl | ⟨middle, entry, rfl⟩
    · exact hm ▸ List.suffix_rfl
    · exfalso
      obtain ⟨rest, hr⟩ := hlog
      have hcut : rest ++ middle ++ entry :: earlier = later ++ (thread, event) :: earlier := by
        rw [← h, ← hr, ← hm]
        simp
      have hentry : entry = (thread, event) := by
        have := List.append_inj_right' hcut (by simp)
        simpa using this
      have hmem : event ∈ history thread (play sem code before state).log :=
        mem_history.mpr (by rw [← hm, hentry]; simp)
      simp [hnone] at hmem

end Play

end Pool

end Effects
