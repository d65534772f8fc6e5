import RmqttThings.Effects.Pool

namespace Effects.Pool

variable {Op Req ρ σ : Type} {Ans : Op → Type}
variable (sem : (op : Op) → σ → Ans op × σ) (code : Req → Prog Ans ρ)
variable {allowed : Req → List (Event Ans) → Op → Prop} {post : Req → ρ → List (Event Ans) → Prop}

-- What holds after a part of a run holds after all of it, if the operations that the threads
-- are allowed to perform keep it. The operation of a step is known with the stage it is at.
theorem stage_invariant
    (hcode : ∀ request, Prog.Spec (allowed request) (post request) (code request) [])
    (inv : Pool σ Req Ans ρ → Prop) (before after : List (Move Req)) (state : σ)
    (hbefore : inv (play sem code before state))
    (hspawn : ∀ pool request, inv pool → inv (pool.spawned code request))
    (hperform : ∀ stage, stage <+: after → ∀ thread request op next,
      (play sem code (before ++ stage) state).threads[thread]? = some ⟨request, .call op next⟩ →
      allowed request (history thread (play sem code (before ++ stage) state).log) op →
      inv (play sem code (before ++ stage) state) →
      inv ((play sem code (before ++ stage) state).performed sem thread request op next)) :
    inv (play sem code (before ++ after) state) := by
  induction after using List.reverseRecOn with
  | nil => simpa using hbefore
  | append_singleton after last ih =>
      have hstage := ih fun stage hstage => hperform stage (hstage.trans (List.prefix_append _ _))
      rw [← List.append_assoc, play_snoc]
      rcases move_cases sem code (play sem code (before ++ after) state) last with
        ⟨request, -, he⟩ | ⟨thread, request, op, next, -, hthread, he⟩ | he
      · rw [he]
        exact hspawn _ request hstage
      · rw [he]
        have hspec := spec_play sem code hcode (before ++ after) state thread _ hthread
        exact hperform after (List.prefix_append _ _) thread request op next hthread hspec.1 hstage
      · rw [he]
        exact hstage

-- The same from the start of the run.
theorem run_invariant
    (hcode : ∀ request, Prog.Spec (allowed request) (post request) (code request) [])
    (inv : Pool σ Req Ans ρ → Prop) (moves : List (Move Req)) (state : σ) (hinit : inv (init state))
    (hspawn : ∀ pool request, inv pool → inv (pool.spawned code request))
    (hperform : ∀ pool thread request op next, pool.threads[thread]? =
      some ⟨request, .call op next⟩ → allowed request (history thread pool.log) op → inv pool →
        inv (pool.performed sem thread request op next)) :
    inv (play sem code moves state) :=
  stage_invariant sem code hcode inv [] moves state hinit hspawn
    fun _ _ thread request op next hthread hallowed h => hperform _ thread request op next hthread
      hallowed h

-- Where an event of a thread stands in the log, and the state that has answered it.
theorem entry_of_history (moves : List (Move Req)) (state : σ) {thread : Nat} {event : Event Ans}
    (h : event ∈ history thread (play sem code moves state).log) :
    ∃ later earlier, (play sem code moves state).log = later ++ (thread, event) :: earlier ∧
      event.2 = (sem event.1 (replay sem state earlier)).1 := by
  obtain ⟨later, earlier, hlog⟩ := List.append_of_mem (mem_history.mp h)
  exact ⟨later, earlier, hlog, answered_play sem code moves state later (thread,
    event) earlier hlog⟩

-- A thread that has come to its end stays there.
theorem ret_stable (first second : List (Move Req)) (state : σ) {thread : Nat} {request : Req}
    {value : ρ} (h : (play sem code first state).threads[thread]? = some ⟨request, .ret value⟩) :
    (play sem code (first ++ second) state).threads[thread]? = some ⟨request, .ret value⟩ := by
  rw [play_append]
  apply foldl_invariant sem code fun pool => pool.threads[thread]? = some ⟨request, .ret value⟩
  · intro pool other hp
    have hl := (List.getElem?_eq_some_iff.mp hp).1
    simpa [spawned, List.getElem?_append_left hl] using hp
  · intro pool other otherRequest op next ho hp
    have hne : other ≠ thread := by
      rintro rfl
      rw [ho] at hp
      cases hp
    simpa [performed, List.getElem?_set_ne hne] using hp
  · exact h

-- The moments at which a request is being served: it has been spawned by then, and it had not
-- been answered before.
structure Serving (moves : List (Move Req)) (state : σ) (thread : Nat) (request : Req)
    (moment : List (Move Req)) :
    Prop where
  within : moment <+: moves
  begun : ∃ program, (play sem code moment state).threads[thread]? = some ⟨request, program⟩
  unanswered : ∀ stage, stage <+: moment → stage ≠ moment → ∀ value,
    (play sem code stage state).threads[thread]? ≠ some ⟨request, .ret value⟩

variable {sem code} in
theorem Serving.longer {moves : List (Move Req)} {state : σ} {thread : Nat} {request : Req}
    {moment : List (Move Req)} (h : Serving sem code moves state thread request moment)
    (rest : List (Move Req)) :
    Serving sem code (moves ++ rest) state thread request moment :=
  ⟨h.within.trans (List.prefix_append _ _), h.begun, h.unanswered⟩

-- A request is being served when it is spawned.
theorem serving_spawned (moves : List (Move Req)) (state : σ) {thread : Nat}
    {served : Thread Req Ans ρ} (h : (play sem code moves state).threads[thread]? = some served) :
    ∃ moment, Serving sem code moves state thread served.request moment := by
  induction moves using List.reverseRecOn generalizing served with
  | nil => simp [play, init] at h
  | append_singleton moves last ih =>
      cases hbefore : (play sem code moves state).threads[thread]? with
      | some old =>
          obtain ⟨moment, hserving⟩ := ih hbefore
          obtain ⟨program, hnow⟩ := request_stable sem code moves [last] state thread old hbefore
          rw [h, Option.some.injEq] at hnow
          exact ⟨moment, hnow ▸ hserving.longer [last]⟩
      | none =>
          refine ⟨moves ++ [last], List.prefix_rfl, ⟨served.program, h⟩,
            fun stage hstage hne value hended => ?_⟩
          obtain ⟨rest, rfl⟩ := (List.prefix_concat_iff.mp hstage).resolve_left hne
          rw [ret_stable sem code stage rest state hended] at hbefore
          cases hbefore

-- And whenever it performs an operation: the log is then what comes before in the whole log.
theorem serving_of_entry (moves : List (Move Req)) (state : σ) {thread : Nat}
    {served : Thread Req Ans ρ} {event : Event Ans} {later earlier : List (Nat × Event Ans)}
    (h : (play sem code moves state).threads[thread]? = some served)
    (hlog : (play sem code moves state).log = later ++ (thread, event) :: earlier) :
    ∃ moment, Serving sem code moves state thread served.request moment ∧
      (play sem code moment state).log = earlier := by
  induction moves using List.reverseRecOn generalizing served later with
  | nil => simp [play, init] at h
  | append_singleton moves last ih =>
      -- an entry that was in the log before the last move
      have hold : ∀ later, (play sem code moves state).log = later ++ (thread, event) :: earlier →
          ∃ moment, Serving sem code (moves ++ [last]) state thread served.request moment ∧
            (play sem code moment state).log = earlier := by
        intro later hlog
        have hspawned : thread < (play sem code moves state).threads.length := by
          by_contra hnot
          have hnone := history_fresh sem code moves state thread (Nat.not_lt.mp hnot)
          simp [hlog] at hnone
        have hbefore := List.getElem?_eq_getElem hspawned
        obtain ⟨moment, hserving, hmoment⟩ := ih hbefore hlog
        obtain ⟨program, hnow⟩ := request_stable sem code moves [last] state thread _ hbefore
        rw [h, Option.some.injEq] at hnow
        exact ⟨moment, hnow ▸ hserving.longer [last], hmoment⟩
      have hsnoc := play_snoc sem code moves last state
      rcases move_cases sem code (play sem code moves state) last with
        ⟨request, -, he⟩ | ⟨other, request, op, next, -, hother, he⟩ | he
      · rw [hsnoc, he] at hlog
        exact hold later hlog
      · rw [hsnoc, he, performed] at hlog
        cases later with
        | nil =>
            rw [List.nil_append, List.cons.injEq] at hlog
            obtain ⟨hentry, hearlier⟩ := hlog
            obtain rfl : other = thread := congrArg Prod.fst hentry
            obtain ⟨program, hnow⟩ := request_stable sem code moves [last] state other _ hother
            rw [h, Option.some.injEq] at hnow
            refine ⟨moves, ⟨List.prefix_append _ _, ⟨.call op next, hnow ▸ hother⟩, ?_⟩, hearlier⟩
            rintro stage ⟨rest, rfl⟩ - value hended
            rw [ret_stable sem code stage rest state hended] at hother
            cases hother
        | cons entry later =>
            rw [List.cons_append, List.cons.injEq] at hlog
            exact hold later hlog.2
      · rw [hsnoc, he] at hlog
        exact hold later hlog

end Effects.Pool
