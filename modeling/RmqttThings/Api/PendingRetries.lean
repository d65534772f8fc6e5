import RmqttThings.Api.WebhookRuns

namespace RmqttThings.Api

open Effects RuleEngine

section Pending

-- From some moment on, `query_pending_retries` selects the row.
def PickedUp (row : AlarmRecord) : Prop := ∃ due, ∀ now, due ≤ now → row.retryDue now = true

def NoneStuck (w : World) : Prop :=
  ∀ row ∈ w.tables.alarms, row.webhookStatus = some 1 →
    0 < row.webhookRetriesLeft ∧ row.webhookNextRetryAt ≠ none ∧ PickedUp row

def RetryColumns.Stuck (columns : RetryColumns) : Prop :=
  columns.status = some 1 ∧ (columns.left ≤ 0 ∨ columns.scheduled = false)

theorem pickedUp_of_columns {row : AlarmRecord} (hstatus : row.webhookStatus = some 1)
    (h : ¬RetryColumns.Stuck row.retryColumns) :
    0 < row.webhookRetriesLeft ∧ row.webhookNextRetryAt ≠ none ∧ PickedUp row := by
  simp only [RetryColumns.Stuck, AlarmRecord.retryColumns, hstatus, true_and, not_or, not_le,
    Bool.not_eq_false] at h
  obtain ⟨hleft, hnext⟩ := h
  have hpos : 0 < row.webhookRetriesLeft := Int16.lt_iff_toInt_lt.mpr (by simpa using hleft)
  obtain ⟨due, hdue⟩ := Option.isSome_iff_exists.mp hnext
  refine ⟨hpos, by simp [hdue], due, fun now hnow => ?_⟩
  simp [AlarmRecord.retryDue, hstatus, hpos, hdue, hnow]

theorem columns_of_noneStuck {w : World} (h : NoneStuck w) {id : Int} {columns : RetryColumns}
    (hrow : retryAt w id = some columns) : ¬RetryColumns.Stuck columns := by
  obtain ⟨row, hfound, rfl⟩ := Option.map_eq_some_iff.mp hrow
  rintro ⟨hstatus, hbad⟩
  obtain ⟨hleft, hnext, -⟩ := h row (List.mem_of_find?_eq_some hfound) hstatus
  have hpos : 0 < row.webhookRetriesLeft.toInt := by simpa using Int16.lt_iff_toInt_lt.mp hleft
  rcases hbad with hbad | hbad
  · simp only [AlarmRecord.retryColumns] at hbad
    omega
  · simp [AlarmRecord.retryColumns, hnext] at hbad

theorem retryAt_of_mem {w : World} (hfresh : w.Fresh) {row : AlarmRecord}
    (h : row ∈ w.tables.alarms) :
    retryAt w row.id = some row.retryColumns := by
  cases hfound : w.tables.alarms.find? (·.id == row.id) with
  | none =>
      have hnone := List.find?_eq_none.mp hfound row h
      simp at hnone
  | some other =>
      have hid : other.id = row.id := by simpa using List.find?_some hfound
      have he := List.inj_on_of_nodup_map hfresh.nodup (List.mem_of_find?_eq_some hfound) h hid
      simp [retryAt, hfound, he]

end Pending

section Runs

variable {state : ApiState} {start : World} {moves : List (Move Job)}

-- No first delivery fails: only the retry loop sees a failed post.
def FirstDeliveriesSucceed (pool : Pool World Job Op.Ans Unit) : Prop :=
  ∀ (thread : Nat) (served : Thread Job Op.Ans Unit) (event : Event Op.Ans),
    pool.threads[thread]? = some served → served.request ≠ .webhookRetry →
    event ∈ Pool.history thread pool.log → ¬PostFailed event

theorem columns_not_stuck (hfresh : start.Fresh) (hstart : NoneStuck start)
    (hcount : 0 < state.alarm.webhookMaxRetries ∨
      FirstDeliveriesSucceed (webhookRun state moves start))
    (hmarks : ∀ thread id error,
      (thread, (⟨.sql (.markWebhookFinalFailure id), .error error⟩ : Event Op.Ans)) ∉
      (webhookRun state moves start).log)
    (hidle : (webhookRun state moves start).Idle)
    {id : Int} {columns : RetryColumns} (hrow : retryAt (webhookRun state moves start).state id =
      some columns) :
    ¬RetryColumns.Stuck columns := by
  have hanswered := Pool.answered_play sem (work state) moves start
  have hlog := Pool.state_eq_replay sem (work state) moves start
  rw [hlog] at hrow
  have hlast := last_event hfresh hanswered id (Touches id) (·) fun w hw op h =>
      retryAt_untouched hw op h
  rcases hlast with ⟨-, hsame⟩ | ⟨later, thread, event, earlier, he, htouch, hlater, hanswer, hsame⟩
  · exact columns_of_noneStuck hstart (hsame ▸ hrow)
  · rw [hsame] at hrow
    obtain ⟨served, hserved, hrule⟩ :=
      Pool.allowed_of_log sem (work state) (spec_work state) moves start later earlier thread event
        he
    rcases retryAt_origin (fresh_stateAt hfresh earlier) hanswer hrow with
      ⟨-, rfl⟩ | ⟨before, hbefore, rfl⟩
    · simp [RetryColumns.Stuck, RetryColumns.initial]
    · cases htouch with
      | insert alarm =>
          obtain ⟨-, hinitial⟩ := retryAt_inserted (fresh_stateAt hfresh earlier) hanswer
          rw [hinitial] at hrow
          simp [RetryColumns.Stuck, ← Option.some.inj hrow, RetryColumns.initial]
      | status status =>
          obtain ⟨rfl, -⟩ := hrule
          simp [RetryColumns.Stuck, RetryColumns.after]
      | retry status left nextRetryAt =>
          obtain ⟨rfl, -, rfl, hnext, ⟨actions, ctx, ruleId, ruleName, hjob⟩, post, hpost,
              hfailed⟩ := hrule
          have hpos : 0 < state.alarm.webhookMaxRetries := by
            refine hcount.resolve_right fun hsucceed => ?_
            refine hsucceed thread served post hserved (by simp [hjob]) ?_ hfailed
            rw [he, Pool.history_append]
            exact List.mem_append_right _ (by simp [hpost])
          have hleft : 0 < state.alarm.webhookMaxRetries.toInt := by
            simpa using Int16.lt_iff_toInt_lt.mp hpos
          simp [RetryColumns.Stuck, RetryColumns.after, hnext, hleft]
      | decrement secs left =>
          have hleft : 0 < left.toInt := by
            by_contra hzero
            obtain ⟨value, hdone⟩ :=
              Prog.eq_ret_of_isDone (hidle served (List.mem_of_getElem? hserved))
            have hclosed := Pool.spec_play sem (work state) (spec_work state) moves start thread
                served hserved
            obtain ⟨request, program⟩ := served
            obtain rfl : request = .webhookRetry := hrule
            obtain rfl : program = .ret value := hdone
            rw [Prog.spec_ret, he, Pool.history_append, Pool.history_cons_self] at hclosed
            obtain ⟨answer, hmark⟩ := hclosed _ id secs left _ rfl (by omega)
            have hmem := Pool.mem_history.mp hmark
            cases answer with
            | error error => exact hmarks thread id error (by simp [he, hmem])
            | ok _ => exact hlater _ hmem .finalFailure
          simp [RetryColumns.Stuck, RetryColumns.after, hleft]
      | finalFailure => simp [RetryColumns.Stuck, RetryColumns.after, RetryColumns.settled]
      | success => simp [RetryColumns.Stuck, RetryColumns.after, RetryColumns.settled]

end Runs

-- Whatever statements fail, no alarm is shown as pending that the loop cannot select,
-- provided that the configured number of retries is positive (or not needed) and that
-- the statement that ends an exhausted alarm does not fail.
theorem no_alarm_stuck (state : ApiState) (start : World) (hfresh : start.Fresh)
    (hstart : NoneStuck start) (moves : List (Move Job))
    (hcount : 0 < state.alarm.webhookMaxRetries ∨
      FirstDeliveriesSucceed (webhookRun state moves start))
    (hmarks : ∀ thread id error,
      (thread, (⟨.sql (.markWebhookFinalFailure id), .error error⟩ : Event Op.Ans)) ∉
      (webhookRun state moves start).log)
    (hidle : (webhookRun state moves start).Idle) :
    NoneStuck (webhookRun state moves start).state := by
  intro row hrow hstatus
  have hfinal : (webhookRun state moves start).state.Fresh := by
    rw [Pool.state_eq_replay sem (work state) moves start]
    exact fresh_stateAt hfresh _
  exact pickedUp_of_columns hstatus
    (columns_not_stuck hfresh hstart hcount hmarks hidle (retryAt_of_mem hfinal hrow))

-- A first delivery and its only retry fail: the alarm has ended, and a second one, which
-- has just fired, waits.
theorem no_alarm_stuck_exhausted :
    let moves : List (Move Job) := .spawn hookJob :: List.replicate 4 (.step 0) ++
      .spawn .webhookRetry :: List.replicate 5 (.step 1) ++ .spawn hookJob :: List.replicate 4
        (.step 2)
    let pool := webhookRun (hookState 1) moves hookStart
    pool.state.tables.alarms.map (·.webhookStatus) = [some 2, some 1] ∧ NoneStuck pool.state := by
  intro moves pool
  refine ⟨by decide +kernel, ?_⟩
  have hup : ∀ entry ∈ pool.log, sqlFailed entry.2 = false := by decide +kernel
  refine no_alarm_stuck (hookState 1) hookStart hookStart_fresh
    (by simp [NoneStuck, hookStart_alarms]) moves (.inl (by decide)) ?_ (by decide +kernel)
  intro thread id error hmem
  have hfailed := hup _ hmem
  cases hfailed

-- No retries are configured; or the statement that ends an exhausted alarm fails.
theorem pending_alarm_stuck :
    (¬∀ (state : ApiState) (start : World) (moves : List (Move Job)),
      (∀ n, start.sqlFaults n = none) →
      start.Fresh → NoneStuck start → (webhookRun state moves start).Idle →
      NoneStuck (webhookRun state moves start).state) ∧
    ¬∀ (state : ApiState) (start : World) (moves : List (Move Job)),
      0 < state.alarm.webhookMaxRetries →
      start.Fresh → NoneStuck start → (webhookRun state moves start).Idle →
      NoneStuck (webhookRun state moves start).state := by
  have hstuck {w : World} (hw : w.tables.alarms.any (fun row =>
      row.webhookStatus == some 1 && row.webhookRetriesLeft == 0) = true) : ¬NoneStuck w := by
    intro h
    obtain ⟨row, hrow, hbad⟩ := List.any_eq_true.mp hw
    simp only [Bool.and_eq_true, beq_iff_eq] at hbad
    have hpos := (h row hrow hbad.1).1
    simp [hbad.2] at hpos
  constructor
  · intro h
    let moves : List (Move Job) := .spawn hookJob :: List.replicate 4 (.step 0)
    have hnone := h (hookState 0) hookStart moves (fun _ => rfl) hookStart_fresh
      (by simp [NoneStuck, hookStart_alarms]) (by decide +kernel)
    exact hstuck (by decide +kernel) hnone
  · intro h
    let faulty : World :=
      { hookStart with sqlFaults := fun n => if n = 5 then some "connection reset" else none }
    let moves : List (Move Job) := .spawn hookJob :: List.replicate 4 (.step 0) ++
      .spawn .webhookRetry :: List.replicate 5 (.step 1)
    have hfaulty : faulty.tables.alarms = [] := rfl
    have hnone := h (hookState 1) faulty moves (by decide) ⟨by simp [hfaulty], by simp [hfaulty]⟩
      (by simp [NoneStuck, hfaulty]) (by decide +kernel)
    exact hstuck (by decide +kernel) hnone

end RmqttThings.Api
