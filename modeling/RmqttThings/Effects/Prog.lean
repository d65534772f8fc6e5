import Mathlib.Data.List.Induction

namespace Effects

-- A program is a tree of operations. Each operation suspends the program until
-- its answer arrives, so two programs can be interleaved at any operation.
inductive Prog {Op : Type} (Ans : Op → Type) (α : Type) where
  | ret (value : α)
  | call (op : Op) (next : Ans op → Prog Ans α)

-- An operation together with the answer that was given to it.
abbrev Event {Op : Type} (Ans : Op → Type) := (op : Op) × Ans op

namespace Prog

variable {Op : Type} {Ans : Op → Type} {α β γ σ : Type}

def bind : Prog Ans α → (α → Prog Ans β) → Prog Ans β
  | .ret value, next => next value
  | .call op rest, next => .call op fun answer => (rest answer).bind next

instance : Monad (Prog Ans) where
  pure := .ret
  bind := bind

def isDone : Prog Ans α → Bool
  | .ret _ => true
  | .call _ _ => false

theorem eq_ret_of_isDone {program : Prog Ans α} (h : program.isDone = true) :
    ∃ value, program = .ret value := by
  cases program with
  | ret value => exact ⟨value, rfl⟩
  | call op rest => cases h

def perform (op : Op) : Prog Ans (Ans op) := .call op .ret

-- The loops of the source are `for` loops whose body only continues or falls
-- through, so the loop is a plain sequence of its bodies.
def forEach : List β → (β → Prog Ans Unit) → Prog Ans Unit
  | [], _ => .ret ()
  | item :: items, body => (body item).bind fun _ => forEach items body

@[simp] theorem pure_eq (value : α) : (pure value : Prog Ans α) = .ret value := rfl

@[simp] theorem bind_eq (program : Prog Ans α) (next : α → Prog Ans β) :
    program >>= next = program.bind next := rfl

@[simp] theorem ret_bind (value : α) (next : α → Prog Ans β) :
    (ret value).bind next = next value := rfl

@[simp] theorem call_bind (op : Op) (rest : Ans op → Prog Ans α) (next : α → Prog Ans β) :
    (call op rest).bind next = call op fun answer => (rest answer).bind next := rfl

@[simp] theorem perform_bind (op : Op) (next : Ans op → Prog Ans β) :
    (perform op).bind next = call op next := rfl

section Sequential

variable (sem : (op : Op) → σ → Ans op × σ)

-- Alone, a program runs to its end: every operation is answered by `sem`.
def run : Prog Ans α → σ → α × σ
  | .ret value, state => (value, state)
  | .call op next, state => (next (sem op state).1).run (sem op state).2

def final (program : Prog Ans α) (state : σ) : σ := (program.run sem state).2

@[simp] theorem run_ret (value : α) (state : σ) : (ret value).run sem state = (value, state) := rfl

@[simp] theorem run_call (op : Op) (next : Ans op → Prog Ans α) (state : σ) :
    (call op next).run sem state = (next (sem op state).1).run sem (sem op state).2 := rfl

@[simp] theorem run_perform (op : Op) (state : σ) :
    (perform op : Prog Ans _).run sem state = sem op state := rfl

@[simp] theorem run_bind (program : Prog Ans α) (next : α → Prog Ans β) (state : σ) :
    (program.bind next).run sem state =
      (next (program.run sem state).1).run sem (program.run sem state).2 := by
  induction program generalizing state with
  | ret value => rfl
  | call op rest ih => exact ih _ _

@[simp] theorem final_ret (value : α) (state : σ) : (ret value).final sem state = state := rfl

@[simp] theorem final_bind (program : Prog Ans α) (next : α → Prog Ans β) (state : σ) :
    (program.bind next).final sem state =
      (next (program.run sem state).1).final sem (program.final sem state) := by
  simp only [final, run_bind]

@[simp] theorem final_forEach_nil (body : β → Prog Ans Unit) (state : σ) :
    (forEach [] body).final sem state = state := rfl

@[simp] theorem final_forEach_cons (item : β) (items : List β) (body : β → Prog Ans Unit)
    (state : σ) :
    (forEach (item :: items) body).final sem state =
      (forEach items body).final sem ((body item).final sem state) := by
  simp only [forEach, final_bind]

theorem final_forEach_append (first second : List β) (body : β → Prog Ans Unit) (state : σ) :
    (forEach (first ++ second) body).final sem state =
      (forEach second body).final sem ((forEach first body).final sem state) := by
  induction first generalizing state with
  | nil => rfl
  | cons item items ih => simp only [List.cons_append, final_forEach_cons, ih]

-- The events of a run, newest first.
def trace : Prog Ans α → σ → List (Event Ans)
  | .ret _, _ => []
  | .call op next, state =>
      (next (sem op state).1).trace (sem op state).2 ++ [⟨op, (sem op state).1⟩]

@[simp] theorem trace_ret (value : α) (state : σ) : (ret value).trace sem state = [] := rfl

@[simp] theorem trace_call (op : Op) (next : Ans op → Prog Ans α) (state : σ) :
    (call op next).trace sem state =
      (next (sem op state).1).trace sem (sem op state).2 ++ [⟨op, (sem op state).1⟩] := rfl

@[simp] theorem trace_bind (program : Prog Ans α) (next : α → Prog Ans β) (state : σ) :
    (program.bind next).trace sem state =
      (next (program.run sem state).1).trace sem (program.final sem state) ++
        program.trace sem state := by
  induction program generalizing state with
  | ret value => simp
  | call op rest ih => simp [ih, final]

theorem trace_forEach_append (first second : List β) (body : β → Prog Ans Unit) (state : σ) :
    (forEach (first ++ second) body).trace sem state =
      (forEach second body).trace sem ((forEach first body).final sem state) ++
        (forEach first body).trace sem state := by
  induction first generalizing state with
  | nil => simp [forEach]
  | cons item items ih =>
      simp only [List.cons_append, forEach, trace_bind, final_bind, ih, List.append_assoc]

end Sequential

section Footprint

-- The operations a program can perform, whatever the answers are.
def Uses (allowed : Op → Prop) : Prog Ans α → Prop
  | .ret _ => True
  | .call op next => allowed op ∧ ∀ answer, (next answer).Uses allowed

variable {allowed : Op → Prop}

@[simp] theorem uses_ret (value : α) : (ret value : Prog Ans α).Uses allowed := trivial

@[simp] theorem uses_call (op : Op) (next : Ans op → Prog Ans α) :
    (call op next).Uses allowed ↔ allowed op ∧ ∀ answer, (next answer).Uses allowed := Iff.rfl

@[simp] theorem uses_perform (op : Op) : (perform op : Prog Ans _).Uses allowed ↔ allowed op := by
  simp [perform]

theorem Uses.bind {program : Prog Ans α} {next : α → Prog Ans β} (h : program.Uses allowed)
    (hnext : ∀ value, (next value).Uses allowed) : (program.bind next).Uses allowed := by
  induction program with
  | ret value => exact hnext value
  | call op rest ih => exact ⟨h.1, fun answer => ih answer (h.2 answer)⟩

theorem Uses.perform {op : Op} {next : Ans op → Prog Ans β} (h : allowed op)
    (hnext : ∀ answer, (next answer).Uses allowed) : (Prog.perform op >>= next).Uses allowed :=
  ⟨h, hnext⟩

theorem Uses.forEach {items : List β} {body : β → Prog Ans Unit}
    (h : ∀ item ∈ items, (body item).Uses allowed) : (forEach items body).Uses allowed := by
  induction items with
  | nil => trivial
  | cons item items ih =>
      apply Uses.bind (h item (by simp))
      exact fun _ => ih fun other hother => h other (List.mem_cons_of_mem _ hother)

theorem Uses.mono {weaker : Op → Prop} {program : Prog Ans α} (h : program.Uses allowed)
    (himp : ∀ op, allowed op → weaker op) : program.Uses weaker := by
  induction program with
  | ret value => trivial
  | call op rest ih => exact ⟨himp op h.1, fun answer => ih answer (h.2 answer)⟩

theorem Uses.and {other : Op → Prop} {program : Prog Ans α} (h : program.Uses allowed)
    (h' : program.Uses other) : program.Uses fun op => allowed op ∧ other op := by
  induction program with
  | ret value => trivial
  | call op rest ih => exact ⟨⟨h.1, h'.1⟩, fun answer => ih answer (h.2 answer) (h'.2 answer)⟩

-- The frame rule: what every operation of the footprint keeps, the run keeps.
theorem Uses.final {sem : (op : Op) → σ → Ans op × σ} {program : Prog Ans α}
    (h : program.Uses allowed) (inv : σ → Prop) (hkeep : ∀ op state, allowed op → inv state →
      inv (sem op state).2)
    {state : σ} (hinv : inv state) : inv (program.final sem state) := by
  induction program generalizing state with
  | ret value => exact hinv
  | call op rest ih => exact ih _ (h.2 _) (hkeep op state h.1 hinv)

theorem Uses.trace {sem : (op : Op) → σ → Ans op × σ} {program : Prog Ans α}
    (h : program.Uses allowed)
    {state : σ} : ∀ event ∈ program.trace sem state, allowed event.1 := by
  induction program generalizing state with
  | ret value => simp
  | call op rest ih =>
      intro event hmem
      simp only [trace_call, List.mem_append, List.mem_singleton] at hmem
      rcases hmem with hmem | rfl
      · exact ih _ (h.2 _) event hmem
      · exact h.1

theorem uses_true (program : Prog Ans α) : program.Uses fun _ => True := by
  induction program with
  | ret value => trivial
  | call op rest ih => exact ⟨trivial, ih⟩

end Footprint

section Local

-- What a program does whatever the answers are. `allowed` restricts each
-- operation by the program's own past events, newest first; `post` relates the
-- result to all of them.
def Spec (allowed : List (Event Ans) → Op → Prop) (post : α → List (Event Ans) → Prop) :
    Prog Ans α → List (Event Ans) → Prop
  | .ret value, past => post value past
  | .call op next, past => allowed past op ∧
      ∀ answer, Spec allowed post (next answer) (⟨op, answer⟩ :: past)

variable {allowed : List (Event Ans) → Op → Prop}

@[simp] theorem spec_ret {post : α → List (Event Ans) → Prop} (value : α)
    (past : List (Event Ans)) :
    Spec allowed post (ret value) past ↔ post value past := Iff.rfl

@[simp] theorem spec_call {post : α → List (Event Ans) → Prop} (op : Op)
    (next : Ans op → Prog Ans α) (past : List (Event Ans)) :
    Spec allowed post (call op next) past ↔
      allowed past op ∧ ∀ answer, Spec allowed post (next answer) (⟨op, answer⟩ :: past) := Iff.rfl

theorem Spec.mono {post weaker : α → List (Event Ans) → Prop} {program : Prog Ans α}
    {past : List (Event Ans)} (h : Spec allowed post program past)
    (hpost : ∀ value past, post value past → weaker value past) :
    Spec allowed weaker program past := by
  induction program generalizing past with
  | ret value => exact hpost value past h
  | call op next ih => exact ⟨h.1, fun answer => ih answer (h.2 answer)⟩

theorem spec_bind {post : β → List (Event Ans) → Prop} (program : Prog Ans α)
    (next : α → Prog Ans β) (past : List (Event Ans)) :
    Spec allowed post (program.bind next) past ↔
      Spec allowed (fun value past => Spec allowed post (next value) past) program past := by
  induction program generalizing past with
  | ret value => exact Iff.rfl
  | call op rest ih =>
      simp only [call_bind, spec_call]
      exact and_congr_right fun _ => forall_congr' fun answer => ih answer _

-- Sequencing through an assertion that the first program establishes.
theorem Spec.seq {mid : α → List (Event Ans) → Prop} {post : β → List (Event Ans) → Prop}
    {program : Prog Ans α} {next : α → Prog Ans β} {past : List (Event Ans)}
    (h : Spec allowed mid program past)
    (hnext : ∀ value past, mid value past → Spec allowed post (next value) past) :
    Spec allowed post (program.bind next) past :=
  (spec_bind program next past).mpr (h.mono hnext)

-- What every operation of the footprint may do and keeps, the program keeps.
theorem Uses.spec {footprint : Op → Prop} {program : Prog Ans α} (h : program.Uses footprint)
    (inv : List (Event Ans) → Prop) (hallowed : ∀ op past, footprint op → inv past →
      allowed past op)
    (hkeep : ∀ op answer past, footprint op → inv past → inv (⟨op, answer⟩ :: past))
    {past : List (Event Ans)} (hinv : inv past) :
    Spec allowed (fun _ past => inv past) program past := by
  induction program generalizing past with
  | ret value => exact hinv
  | call op next ih =>
      exact ⟨hallowed op past h.1 hinv,
        fun answer => ih answer (h.2 answer) (hkeep op answer past h.1 hinv)⟩

theorem spec_forEach {inv : List (Event Ans) → Prop} (items : List β) (body : β → Prog Ans Unit)
    (hbody : ∀ item ∈ items, ∀ past, inv past →
      Spec allowed (fun _ past => inv past) (body item) past)
    (past : List (Event Ans)) (hinv : inv past) :
    Spec allowed (fun _ past => inv past) (forEach items body) past := by
  induction items generalizing past with
  | nil => exact hinv
  | cons item items ih =>
      apply Spec.seq (hbody item (by simp) past hinv)
      intro _ past hinv
      exact ih (fun other hother => hbody other (List.mem_cons_of_mem _ hother)) past hinv

-- What is left of a program once it has performed these events, newest first.
def Reaches (program : Prog Ans α) : List (Event Ans) → Prog Ans α → Prop
  | [], rest => rest = program
  | event :: past, rest => ∃ next, program.Reaches past (.call event.1 next) ∧ rest = next event.2

-- A program that has performed anything has performed its first operation.
theorem reaches_call {op : Op} {next : Ans op → Prog Ans α} {past : List (Event Ans)}
    {rest : Prog Ans α} (h : (call op next).Reaches past rest) :
    (past = [] ∧ rest = call op next) ∨
      ∃ answer newer, past = newer ++ [⟨op, answer⟩] ∧ (next answer).Reaches newer rest := by
  induction past generalizing rest with
  | nil => exact .inl ⟨rfl, h⟩
  | cons event past ih =>
      obtain ⟨after, hafter, rfl⟩ := h
      rcases ih hafter with ⟨rfl, he⟩ | ⟨answer, newer, rfl, hnewer⟩
      · obtain ⟨first, answer⟩ := event
        cases he
        exact .inr ⟨answer, [], rfl, rfl⟩
      · exact .inr ⟨answer, event :: newer, rfl, after, hnewer, rfl⟩

theorem reaches_ret {value : α} {past : List (Event Ans)} {rest : Prog Ans α}
    (h : (ret value).Reaches past rest) :
    past = [] ∧ rest = ret value := by
  induction past generalizing rest with
  | nil => exact ⟨rfl, h⟩
  | cons event past ih =>
      obtain ⟨next, hnext, -⟩ := h
      cases (ih hnext).2

-- A program that goes on does so under its specification.
theorem Reaches.spec {post : α → List (Event Ans) → Prop} {program rest : Prog Ans α}
    {past : List (Event Ans)}
    (h : program.Reaches past rest) (hspec : Spec allowed post program []) :
    Spec allowed post rest past := by
  induction past generalizing rest with
  | nil =>
      obtain rfl : rest = program := h
      exact hspec
  | cons event past ih =>
      obtain ⟨next, hnext, rfl⟩ := h
      exact (ih hnext).2 event.2

end Local

end Prog

end Effects
