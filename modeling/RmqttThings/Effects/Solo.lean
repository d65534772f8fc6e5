import RmqttThings.Effects.Pool

namespace Effects.Pool

variable {Op Req ρ σ : Type} {Ans : Op → Type}
variable (sem : (op : Op) → σ → Ans op × σ) (code : Req → Prog Ans ρ)

-- A thread that is not interrupted does to the state what its program does alone.
theorem foldl_solo (pool : Pool σ Req Ans ρ) {thread : Nat} {request : Req} {program : Prog Ans ρ}
    (h : pool.threads[thread]? = some ⟨request, program⟩) :
    (List.replicate (program.trace sem pool.state).length (.step thread)).foldl
      (move sem code) pool =
      ⟨program.final sem pool.state,
        pool.threads.set thread ⟨request, .ret (program.run sem pool.state).1⟩,
        (program.trace sem pool.state).map (thread, ·) ++ pool.log⟩ := by
  induction program generalizing pool with
  | ret value =>
      have hsame : pool.threads.set thread ⟨request, .ret value⟩ = pool.threads := by
        obtain ⟨hlt, hget⟩ := List.getElem?_eq_some_iff.mp h
        rw [← hget, List.set_getElem_self]
      simp only [Prog.trace_ret, List.length_nil, List.replicate_zero, List.foldl_nil,
        Prog.final_ret, Prog.run_ret, List.map_nil, List.nil_append, hsame]
  | call op next ih =>
      have hmove : pool.move sem code (.step thread) = pool.performed sem thread request op
          next := by
        simp only [move, h]
      have hlt := (List.getElem?_eq_some_iff.mp h).1
      have hnext : (pool.performed sem thread request op next).threads[thread]? =
          some ⟨request, next (sem op pool.state).1⟩ := by
        simp [performed, List.getElem?_set_self hlt]
      have hrest := ih (sem op pool.state).1 (pool.performed sem thread request op next) hnext
      rw [Prog.trace_call, List.length_append, List.length_singleton, List.replicate_succ,
        List.foldl_cons, hmove]
      refine hrest.trans ?_
      simp [performed, List.set_set, Prog.final]

-- The run goes on with a request that is served without interruption.
def andThen (state : σ) (moves : List (Move Req)) (request : Req) : List (Move Req) :=
  moves ++ .spawn request :: List.replicate
    ((code request).trace sem (play sem code moves state).state).length
    (.step (play sem code moves state).threads.length)

theorem play_andThen (moves : List (Move Req)) (state : σ) (request : Req) :
    play sem code (andThen sem code state moves request) state =
      ⟨(code request).final sem (play sem code moves state).state,
        (play sem code moves state).threads ++
          [⟨request, .ret ((code request).run sem (play sem code moves state).state).1⟩],
        ((code request).trace sem (play sem code moves state).state).map
          ((play sem code moves state).threads.length, ·) ++ (play sem code moves state).log⟩ := by
  rw [andThen, play_append, List.foldl_cons]
  generalize play sem code moves state = pool
  have hnew : (pool.spawned code request).threads[pool.threads.length]? = some ⟨request,
      code request⟩ := by
    simp [spawned]
  refine (foldl_solo sem code (pool.spawned code request) hnew).trans ?_
  simp [spawned]

end Effects.Pool
