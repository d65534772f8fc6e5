import RmqttThings.Effects.Prog

namespace Effects.Prog

variable {Op : Type} {Ans : Op → Type} {α β σ : Type} (sem : (op : Op) → σ → Ans op × σ)

-- The weakest precondition of a run. An assertion speaks about the state and about
-- the events so far, newest first. Every program ends, so this is total correctness.
def wp : Prog Ans α → (α → List (Event Ans) → σ → Prop) → List (Event Ans) → σ → Prop
  | .ret value, post, past, state => post value past state
  | .call op next, post, past, state =>
      (next (sem op state).1).wp post (⟨op, (sem op state).1⟩ :: past) (sem op state).2

variable {sem}

@[simp] theorem wp_ret {post : α → List (Event Ans) → σ → Prop} (value : α)
    (past : List (Event Ans))
    (state : σ) : (ret value).wp sem post past state ↔ post value past state := Iff.rfl

@[simp] theorem wp_call {post : α → List (Event Ans) → σ → Prop} (op : Op)
    (next : Ans op → Prog Ans α) (past : List (Event Ans)) (state : σ) :
    (call op next).wp sem post past state ↔
      (next (sem op state).1).wp sem post (⟨op, (sem op state).1⟩ :: past) (sem op state).2 :=
        Iff.rfl

theorem wp_iff {post : α → List (Event Ans) → σ → Prop} (program : Prog Ans α)
    (past : List (Event Ans)) (state : σ) :
    program.wp sem post past state ↔
      post (program.run sem state).1 (program.trace sem state ++ past)
        (program.final sem state) := by
  induction program generalizing past state with
  | ret value => rfl
  | call op next ih => simp [ih, final]

theorem wp_bind {post : β → List (Event Ans) → σ → Prop} (program : Prog Ans α)
    (next : α → Prog Ans β) (past : List (Event Ans)) (state : σ) :
    (program.bind next).wp sem post past state ↔
      program.wp sem (fun value past state => (next value).wp sem post past state) past state := by
  induction program generalizing past state with
  | ret value => rfl
  | call op rest ih => exact ih _ _ _

theorem wp_mono {post weaker : α → List (Event Ans) → σ → Prop} {program : Prog Ans α}
    {past : List (Event Ans)} {state : σ} (h : program.wp sem post past state)
    (himp : ∀ value past state, post value past state → weaker value past state) :
    program.wp sem weaker past state := by
  induction program generalizing past state with
  | ret value => exact himp _ _ _ h
  | call op next ih => exact ih _ h

-- The value and the state that an assertion speaks about are those of the run.
theorem wp_run {post : α → List (Event Ans) → σ → Prop} {program : Prog Ans α}
    {past : List (Event Ans)} {state : σ} (h : program.wp sem post past state) :
    program.wp sem (fun value past after => (value, after) = program.run sem state ∧
      post value past after) past state :=
  (wp_iff program past state).mpr ⟨rfl, (wp_iff program past state).mp h⟩

theorem wp_seq {mid : α → List (Event Ans) → σ → Prop} {post : β → List (Event Ans) → σ → Prop}
    {program : Prog Ans α} {next : α → Prog Ans β} {past : List (Event Ans)} {state : σ}
    (h : program.wp sem mid past state)
    (hnext : ∀ value past state, mid value past state → (next value).wp sem post past state) :
    (program.bind next).wp sem post past state :=
  (wp_bind program next past state).mpr (wp_mono h hnext)

-- The loop rule. The invariant may depend on the items that are done.
theorem wp_forEach (inv : List β → List (Event Ans) → σ → Prop) {body : β → Prog Ans Unit}
    (items : List β)
    (hbody : ∀ done item rest, items = done ++ item :: rest → ∀ past state, inv done past state →
      (body item).wp sem (fun _ => inv (done ++ [item])) past state)
    {past : List (Event Ans)} {state : σ} (hinv : inv [] past state) :
    (forEach items body).wp sem (fun _ => inv items) past state := by
  have hloop : ∀ todo done, items = done ++ todo → ∀ past state, inv done past state →
      (forEach todo body).wp sem (fun _ => inv items) past state := by
    intro todo
    induction todo with
    | nil =>
        intro done he past state h
        rw [List.append_nil] at he
        exact he ▸ h
    | cons item todo ih =>
        intro done he past state h
        apply wp_seq (hbody done item todo he past state h)
        intro _ past state h
        exact ih (done ++ [item]) (by simp [he]) past state h
  exact hloop items [] rfl past state hinv

-- What every operation of the footprint keeps, the program keeps.
theorem Uses.wp {allowed : Op → Prop} {program : Prog Ans α} (h : program.Uses allowed)
    (inv : List (Event Ans) → σ → Prop)
    (hkeep : ∀ op past state, allowed op → inv past state →
      inv (⟨op, (sem op state).1⟩ :: past) (sem op state).2)
    {past : List (Event Ans)} {state : σ} (hinv : inv past state) :
    program.wp sem (fun _ => inv) past state := by
  induction program generalizing past state with
  | ret value => exact hinv
  | call op next ih => exact ih _ (h.2 _) (hkeep op past state h.1 hinv)

-- What holds of a program whatever the answers are, holds of its runs; what its operations keep,
-- the run keeps.
theorem Spec.wp {allowed : List (Event Ans) → Op → Prop} {post : α → List (Event Ans) → Prop}
    {program : Prog Ans α} {past : List (Event Ans)} (h : Spec allowed post program past)
    (inv : List (Event Ans) → σ → Prop)
    (hkeep : ∀ op past state, allowed past op → inv past state →
      inv (⟨op, (sem op state).1⟩ :: past) (sem op state).2)
    {state : σ} (hinv : inv past state) :
    program.wp sem (fun value past state => post value past ∧ inv past state) past state := by
  induction program generalizing past state with
  | ret value => exact ⟨h, hinv⟩
  | call op next ih => exact ih _ (h.2 _) (hkeep op past state h.1 hinv)

theorem Spec.weaken {allowed weaker : List (Event Ans) → Op → Prop}
    {post : α → List (Event Ans) → Prop} {program : Prog Ans α} {past : List (Event Ans)}
    (h : Spec allowed post program past)
    (himp : ∀ past op, allowed past op → weaker past op) : Spec weaker post program past := by
  induction program generalizing past with
  | ret value => exact h
  | call op next ih => exact ⟨himp past op h.1, fun answer => ih answer (h.2 answer)⟩

theorem Spec.keeps {allowed : List (Event Ans) → Op → Prop} {post : α → List (Event Ans) → Prop}
    {program : Prog Ans α} {past : List (Event Ans)} (h : Spec allowed post program past)
    (inv : List (Event Ans) → Prop)
    (hkeep : ∀ op answer past, allowed past op → inv past → inv (⟨op, answer⟩ :: past))
    (hinv : inv past) :
    Spec (fun past op => allowed past op ∧ inv past) (fun value past => post value past ∧ inv past)
      program past := by
  induction program generalizing past with
  | ret value => exact ⟨h, hinv⟩
  | call op next ih =>
      exact ⟨⟨h.1, hinv⟩, fun answer => ih answer (h.2 answer) (hkeep op answer past h.1 hinv)⟩

variable (sem) in
theorem Spec.trace {allowed : List (Event Ans) → Op → Prop} {post : α → List (Event Ans) → Prop}
    {program : Prog Ans α} (h : Spec allowed post program []) (state : σ) :
    post (program.run sem state).1 (program.trace sem state) := by
  have hwp : program.wp sem (fun value past _ => post value past ∧ True) [] state :=
    h.wp (fun _ _ => True) (fun _ _ _ _ _ => trivial) trivial
  rw [wp_iff, List.append_nil] at hwp
  exact hwp.1

section Replay

variable (sem)

-- The state that a run has reached, from its events, newest first.
def replay (state : σ) : List (Event Ans) → σ
  | [] => state
  | event :: earlier => (sem event.1 (replay state earlier)).2

end Replay

end Effects.Prog
