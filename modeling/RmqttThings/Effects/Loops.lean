import Mathlib.Logic.Basic

namespace Effects

variable {σ ρ : Type*}

-- A `loop` whose body returns or goes on with another state: it ends after
-- finitely many rounds, with this result.
inductive LoopEnds (body : σ → ρ ⊕ σ) : σ → ρ → Prop where
  | returns {state : σ} {result : ρ} (h : body state = .inl result) : LoopEnds body state result
  | repeats {state next : σ} {result : ρ} (h : body state = .inr next)
      (rest : LoopEnds body next result) :
      LoopEnds body state result

theorem LoopEnds.unique {body : σ → ρ ⊕ σ} {state : σ} {first second : ρ}
    (hfirst : LoopEnds body state first)
    (hsecond : LoopEnds body state second) : first = second := by
  induction hfirst with
  | returns h =>
      cases hsecond with
      | returns h' => exact Sum.inl.inj (h.symm.trans h')
      | repeats h' => exact absurd (h.symm.trans h') Sum.inl_ne_inr
  | repeats h _ ih =>
      cases hsecond with
      | returns h' => exact absurd (h'.symm.trans h) Sum.inl_ne_inr
      | repeats h' rest => exact ih (Sum.inr.inj (h'.symm.trans h) ▸ rest)

-- The loop rule: what every round keeps holds at the end.
theorem LoopEnds.invariant {body : σ → ρ ⊕ σ} {inv : σ → Prop} {post : ρ → Prop}
    (hreturns : ∀ state result, inv state → body state = .inl result → post result)
    (hrepeats : ∀ state next, inv state → body state = .inr next → inv next) {state : σ}
    {result : ρ} (h : LoopEnds body state result) (hstart : inv state) : post result := by
  induction h with
  | returns h => exact hreturns _ _ hstart h
  | repeats h _ ih => exact ih (hrepeats _ _ hstart h)

end Effects
