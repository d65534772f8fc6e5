import RmqttThings.RuleEngine.AlarmTable
import RmqttThings.RuleEngine.WebhookRetry

namespace RmqttThings.RuleEngine

open Effects

-- The retry state of an alarm row. Of the scheduled instant only its presence matters here.
structure RetryColumns where
  status : Option Int16
  left : Int
  scheduled : Bool
  deriving DecidableEq

def AlarmRecord.retryColumns (row : AlarmRecord) : RetryColumns :=
  ⟨row.webhookStatus, row.webhookRetriesLeft.toInt, row.webhookNextRetryAt.isSome⟩

namespace RetryColumns

-- A new row: no webhook has been recorded for it.
def initial : RetryColumns := ⟨none, 0, false⟩

def settled (status : Int16) : RetryColumns := ⟨some status, 0, false⟩

-- What an event does to the columns of the alarm `id`.
def after (id : Int) (columns : RetryColumns) : Event Op.Ans → RetryColumns
  | ⟨.sql (.updateAlarmWebhookStatus other status), .ok _⟩ =>
      if other = id then { columns with status := some status } else columns
  | ⟨.sql (.updateAlarmWebhookStatusWithRetry other status left nextRetryAt), .ok _⟩ =>
      if other = id then ⟨some status, left.toInt, nextRetryAt.isSome⟩ else columns
  | ⟨.sql (.decrementRetryAndScheduleNext other _), .ok (some left)⟩ =>
      if other = id then { columns with left := left.toInt, scheduled := true } else columns
  | ⟨.sql (.markWebhookFinalFailure other), .ok _⟩ => if other = id then settled 2 else columns
  | ⟨.sql (.markWebhookSuccess other), .ok _⟩ => if other = id then settled 0 else columns
  | _ => columns

end RetryColumns

def retryAt (w : World) (id : Int) : Option RetryColumns :=
  (w.tables.alarms.find? (·.id == id)).map AlarmRecord.retryColumns

section Step

variable {w : World} {id : Int} {columns : RetryColumns}

theorem retryAt_of_alarms {w' : World} (h : w'.tables.alarms = w.tables.alarms) :
    retryAt w' id = retryAt w id := by
  simp only [retryAt, h]

theorem retryAt_updateWhere {w' : World} {cond : AlarmRecord → Bool}
    {set : AlarmRecord → AlarmRecord}
    (halarms : w'.tables.alarms = (updateWhere w.tables.alarms cond set).2)
    (hid : ∀ row, (set row).id = row.id) {row : AlarmRecord}
    (h : w.tables.alarms.find? (·.id == id) = some row) :
    retryAt w' id = some (if cond row then set row else row).retryColumns := by
  rw [retryAt, halarms, updateWhere, find?_map_of_id _ id, h]
  · rfl
  · intro other
    split_ifs
    · exact hid other
    · rfl

-- Ids are unique, so that a further guard decides about the one row of the id.
theorem find?_guarded (hfresh : w.Fresh) {row : AlarmRecord} (guard : AlarmRecord → Bool)
    (h : w.tables.alarms.find? (·.id == id) = some row) :
    w.tables.alarms.find? (fun other => other.id == id && guard other) = if guard row then some row
      else none := by
  have hmem := List.mem_of_find?_eq_some h
  have hrow : row.id = id := by simpa using List.find?_some h
  have hunique : ∀ other ∈ w.tables.alarms, other.id = id → other = row := by
    intro other hother he
    exact List.inj_on_of_nodup_map hfresh.nodup hother hmem (he.trans hrow.symm)
  cases hfound : w.tables.alarms.find? (fun other => other.id == id && guard other) with
  | none =>
      have hnone := List.find?_eq_none.mp hfound row hmem
      simp_all
  | some other =>
      have hother := List.find?_some hfound
      simp only [Bool.and_eq_true, beq_iff_eq] at hother
      obtain rfl := hunique other (List.mem_of_find?_eq_some hfound) hother.1
      simp [hother.2]

theorem toInt_sub_one {left : Int16} (h : 0 < left) : (left - 1).toInt = left.toInt - 1 := by
  have hlo : 0 < left.toInt := by simpa using Int16.lt_iff_toInt_lt.mp h
  have hhi := left.toInt_lt
  rw [Int16.toInt_sub]
  simp only [show (1 : Int16).toInt = 1 by decide]
  exact Int.bmod_eq_of_le (by omega) (by omega)

theorem after_of_writes {op : Op} (h : op.writes ≠ some .alarms) (answer : op.Ans) :
    columns.after id ⟨op, answer⟩ = columns := by
  cases op with
  | sql stmt => cases stmt <;> first | rfl | exact absurd rfl h
  | _ => rfl

theorem after_error (stmt : Sql) (error : String) :
    columns.after id ⟨.sql stmt, .error error⟩ = columns := by
  cases stmt <;> rfl

-- The statements that write alarm rows, on the row of the id.
theorem retryAt_exec (hfresh : w.Fresh) {w' : World} (stmt : Sql) (now : OffsetDateTime)
    (hwrites : stmt.writes = some .alarms)
    (halarms : w'.tables.alarms = (stmt.exec now w.tables).2.alarms)
    {row : AlarmRecord} (hrow : w.tables.alarms.find? (·.id == id) = some row) :
    retryAt w' id = some (row.retryColumns.after id ⟨.sql stmt,
      .ok (stmt.exec now w.tables).1⟩) := by
  have hid : row.id = id := by simpa using List.find?_some hrow
  have hcond (other : Int) : (row.id == other) = decide (other = id) := by
    rw [hid, Bool.beq_eq_decide_eq]
    exact decide_eq_decide.mpr eq_comm
  cases stmt with
  | insertAlarm alarm =>
      rw [retryAt, halarms]
      simp only [Sql.exec, List.find?_append, hrow]
      rfl
  | updateAlarmWebhookStatus other status =>
      rw [retryAt_updateWhere halarms (fun _ => rfl) hrow]
      by_cases he : other = id <;> simp [RetryColumns.after, AlarmRecord.retryColumns, hcond, he]
  | updateAlarmWebhookStatusWithRetry other status left nextRetryAt =>
      rw [retryAt_updateWhere halarms (fun _ => rfl) hrow]
      by_cases he : other = id <;> simp [RetryColumns.after, AlarmRecord.retryColumns, hcond, he]
  | decrementRetryAndScheduleNext other secs =>
      rw [retryAt_updateWhere halarms (fun _ => rfl) hrow]
      by_cases he : other = id
      · subst he
        have hfound := find?_guarded hfresh (fun row => decide (0 < row.webhookRetriesLeft)) hrow
        simp only [Sql.exec, hfound]
        by_cases hleft : 0 < row.webhookRetriesLeft
        · simp [RetryColumns.after, AlarmRecord.retryColumns, AlarmRecord.retryScheduled,
            hcond, hleft]
        · simp [RetryColumns.after, AlarmRecord.retryColumns, hleft]
      · simp only [hcond, he, decide_false, Bool.false_and, Bool.false_eq_true, if_false]
        cases hanswer : (Sql.exec now (.decrementRetryAndScheduleNext other secs) w.tables).1 <;>
          simp [RetryColumns.after, he]
  | markWebhookFinalFailure other =>
      rw [retryAt_updateWhere halarms (fun _ => rfl) hrow]
      by_cases he : other = id <;> simp [RetryColumns.after, RetryColumns.settled,
        AlarmRecord.retryColumns, AlarmRecord.webhookSettled, hcond, he]
  | markWebhookSuccess other =>
      rw [retryAt_updateWhere halarms (fun _ => rfl) hrow]
      by_cases he : other = id <;> simp [RetryColumns.after, RetryColumns.settled,
        AlarmRecord.retryColumns, AlarmRecord.webhookSettled, hcond, he]
  | ackAlarm other =>
      rw [retryAt_updateWhere halarms (fun _ => rfl) hrow]
      split_ifs <;> rfl
  | clearAlarm other =>
      rw [retryAt_updateWhere halarms (fun _ => rfl) hrow]
      split_ifs <;> rfl
  | _ => simp [Sql.writes] at hwrites

-- The columns of an existing row are a function of the events.
theorem retryAt_step (hfresh : w.Fresh) (op : Op) (h : retryAt w id = some columns) :
    retryAt (sem op w).2 id = some (columns.after id ⟨op, (sem op w).1⟩) := by
  obtain ⟨row, hrow, rfl⟩ := Option.map_eq_some_iff.mp h
  by_cases hwrites : op.writes = some .alarms
  · cases op with
    | sql stmt =>
        cases hfault : w.sqlFaults 0 with
        | some error => simp [sem, Op.exec, hfault, after_error, retryAt, hrow]
        | none =>
            have halarms : (sem (.sql stmt) w).2.tables.alarms =
                (stmt.exec w.tick.clock w.tables).2.alarms := by
              simp [sem, Op.exec, hfault]
            rw [retryAt_exec hfresh stmt w.tick.clock hwrites halarms hrow]
            simp [sem, Op.exec, hfault]
    | _ => simp [Op.writes] at hwrites
  · rw [after_of_writes hwrites, retryAt_of_alarms (sem_same .alarms hwrites w).1, h]

-- A row comes into being by an insert that answers its id.
theorem retryAt_created (op : Op) (h : retryAt w id = none) :
    retryAt (sem op w).2 id = none ∨
      ∃ alarm, (⟨op, (sem op w).1⟩ : Event Op.Ans) = ⟨.sql (.insertAlarm alarm), .ok id⟩ ∧
        retryAt (sem op w).2 id = some .initial := by
  have hnone : w.tables.alarms.find? (·.id == id) = none := by simpa [retryAt] using h
  rcases sem_alarms op w with ⟨alarm, rfl, hup, ha, -⟩ | ⟨step, hstep, ha, -⟩
  · by_cases he : w.tables.nextAlarmId = id
    · refine .inr ⟨alarm, ?_, ?_⟩
      · simp [sem, Op.exec, hup, Sql.exec, he]
      · simp [retryAt, ha, List.find?_append, hnone, NewAlarm.toRecord, he,
          AlarmRecord.retryColumns, RetryColumns.initial]
    · refine .inl ?_
      simp [retryAt, ha, List.find?_append, hnone, NewAlarm.toRecord, he]
  · refine .inl ?_
    rw [retryAt, ha, find?_map_of_id fun other => (hstep other).sameAlarm.id, hnone]
    rfl

-- The events that bear on the retry columns of the alarm `id`.
inductive Touches (id : Int) : Event Op.Ans → Prop where
  | insert (alarm : NewAlarm) : Touches id ⟨.sql (.insertAlarm alarm), .ok id⟩
  | status (status : Int16) : Touches id ⟨.sql (.updateAlarmWebhookStatus id status), .ok ()⟩
  | retry (status left : Int16) (nextRetryAt : Option OffsetDateTime) :
      Touches id ⟨.sql (.updateAlarmWebhookStatusWithRetry id status left nextRetryAt), .ok ()⟩
  | decrement (secs : Int) (left : Int16) :
      Touches id ⟨.sql (.decrementRetryAndScheduleNext id secs), .ok (some left)⟩
  | finalFailure : Touches id ⟨.sql (.markWebhookFinalFailure id), .ok ()⟩
  | success : Touches id ⟨.sql (.markWebhookSuccess id), .ok ()⟩

theorem after_of_not_touches {event : Event Op.Ans} (h : ¬Touches id event) :
    columns.after id event = columns := by
  unfold RetryColumns.after
  split <;> try rfl
  all_goals
    split_ifs with he
    · subst he
      exact absurd (by constructor) h
    · rfl

theorem retryAt_untouched (hfresh : w.Fresh) (op : Op) (h : ¬Touches id ⟨op, (sem op w).1⟩) :
    retryAt (sem op w).2 id = retryAt w id := by
  cases hrow : retryAt w id with
  | some columns => rw [retryAt_step hfresh op hrow, after_of_not_touches h]
  | none =>
      rcases retryAt_created op hrow with hnone | ⟨alarm, he, -⟩
      · exact hnone
      · exact absurd (he ▸ .insert alarm) h

-- Where the columns come from: a fresh row, or what the event makes of the old ones.
theorem retryAt_origin (hfresh : w.Fresh) {event : Event Op.Ans}
    (hanswer : event.2 = (sem event.1 w).1) (h : retryAt (sem event.1 w).2 id = some columns) :
    ((∃ alarm, event = ⟨.sql (.insertAlarm alarm), .ok id⟩) ∧ columns = .initial) ∨
      ∃ before, retryAt w id = some before ∧ columns = before.after id event := by
  obtain ⟨op, answer⟩ := event
  simp only at hanswer h
  subst hanswer
  cases hrow : retryAt w id with
  | some before =>
      rw [retryAt_step hfresh op hrow] at h
      exact .inr ⟨before, rfl, (Option.some.inj h).symm⟩
  | none =>
      rcases retryAt_created op hrow with hnone | ⟨alarm, he, hinitial⟩
      · rw [hnone] at h
        cases h
      · rw [hinitial] at h
        exact .inl ⟨⟨alarm, he⟩, (Option.some.inj h).symm⟩

theorem retryAt_inserted (hfresh : w.Fresh) {alarm : NewAlarm}
    (hanswer : .ok id = (sem (.sql (.insertAlarm alarm)) w).1) :
    id = w.tables.nextAlarmId ∧ retryAt (sem (.sql (.insertAlarm alarm)) w).2 id =
      some .initial := by
  have hup : w.sqlFaults 0 = none := by
    cases hfault : w.sqlFaults 0 with
    | none => rfl
    | some error => simp [sem, Op.exec, hfault] at hanswer
  have hid : id = w.tables.nextAlarmId := by simpa [sem, Op.exec, hup, Sql.exec] using hanswer
  have hnone : w.tables.alarms.find? (·.id == id) = none := by
    refine List.find?_eq_none.mpr fun row hrow => ?_
    have hlt := hfresh.lt row hrow
    simp only [beq_iff_eq]
    omega
  refine ⟨hid, ?_⟩
  simp [retryAt, sem, Op.exec, hup, Sql.exec, List.find?_append, hnone, NewAlarm.toRecord, ← hid,
    AlarmRecord.retryColumns, RetryColumns.initial]

-- The id of an existing row is not given out again.
theorem not_reinserted (hfresh : w.Fresh) (h : retryAt w id ≠ none) (alarm : NewAlarm) :
    .ok id ≠ (sem (.sql (.insertAlarm alarm)) w).1 := by
  intro hanswer
  obtain ⟨columns, hcolumns⟩ := Option.ne_none_iff_exists'.mp h
  obtain ⟨row, hfound, -⟩ := Option.map_eq_some_iff.mp hcolumns
  have hid : row.id = id := by simpa using List.find?_some hfound
  have hlt := hfresh.lt row (List.mem_of_find?_eq_some hfound)
  have hnext := (retryAt_inserted hfresh hanswer).1
  omega

-- A positive counter is decremented, and the statement answers the new value.
theorem decrement_answer (hfresh : w.Fresh) (h : retryAt w id = some columns)
    (hleft : 0 < columns.left) {secs : Int}
    {answer : Option Int16} (hanswer : (sem (.sql (.decrementRetryAndScheduleNext id secs)) w).1 =
      .ok answer) :
    ∃ left, answer = some left ∧ left.toInt = columns.left - 1 := by
  obtain ⟨row, hrow, rfl⟩ := Option.map_eq_some_iff.mp h
  have hpos : 0 < row.webhookRetriesLeft :=
    Int16.lt_iff_toInt_lt.mpr (by simpa [AlarmRecord.retryColumns] using hleft)
  have hfound := find?_guarded hfresh (fun row => decide (0 < row.webhookRetriesLeft)) hrow
  refine ⟨row.webhookRetriesLeft - 1, ?_, toInt_sub_one hpos⟩
  cases hfault : w.sqlFaults 0 with
  | some error => simp [sem, Op.exec, hfault] at hanswer
  | none => simpa [sem, Op.exec, hfault, Sql.exec, hfound, hpos, eq_comm] using hanswer

end Step

end RmqttThings.RuleEngine
