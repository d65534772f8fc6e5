import RmqttThings.RuleEngine.Runs

namespace RmqttThings.RuleEngine

open Effects

-- Everything a statement can do to an alarm row that exists.
inductive RowStep (now : OffsetDateTime) (row : AlarmRecord) : AlarmRecord → Prop where
  | same : RowStep now row row
  | ack (h : row.status = .active) : RowStep now row row.acked
  | clear (h : row.status ≠ .cleared) : RowStep now row (row.clearedNow now)
  | webhook (status : Option Int16) (retriesLeft : Int16) (nextRetryAt : Option OffsetDateTime) :
      RowStep now row { row with
        webhookStatus := status
        webhookRetriesLeft := retriesLeft
        webhookNextRetryAt := nextRetryAt }

-- What identifies a row and is never updated.
structure SameAlarm (row row' : AlarmRecord) : Prop where
  id : row'.id = row.id
  ruleId : row'.ruleId = row.ruleId
  deviceId : row'.deviceId = row.deviceId
  createdAt : row'.createdAt = row.createdAt

theorem RowStep.sameAlarm {now : OffsetDateTime} {row row' : AlarmRecord}
    (h : RowStep now row row') :
    SameAlarm row row' := by
  cases h <;> exact ⟨rfl, rfl, rfl, rfl⟩

theorem updateWhere_steps (now : OffsetDateTime) (rows : List AlarmRecord)
    (cond : AlarmRecord → Bool)
    (set : AlarmRecord → AlarmRecord) (hset : ∀ row, cond row → RowStep now row (set row)) :
    ∃ step : AlarmRecord → AlarmRecord, (∀ row, RowStep now row (step row)) ∧
      (updateWhere rows cond set).2 = rows.map step := by
  refine ⟨fun row => if cond row then set row else row, fun row => ?_, rfl⟩
  by_cases h : cond row
  · simpa [h] using hset row h
  · simpa [h] using RowStep.same

theorem find?_map_of_id {rows : List AlarmRecord} {step : AlarmRecord → AlarmRecord}
    (hid : ∀ row, (step row).id = row.id) (id : Int) :
    (rows.map step).find? (·.id == id) = (rows.find? (·.id == id)).map step := by
  simp only [List.find?_map, Function.comp_def, hid]

-- A statement inserts one row or updates the rows in place.
theorem exec_alarms (stmt : Sql) (now : OffsetDateTime) (t : Tables) :
    (∃ alarm, stmt = .insertAlarm alarm ∧
      (stmt.exec now t).2.alarms = t.alarms ++ [alarm.toRecord t.nextAlarmId now] ∧
      (stmt.exec now t).2.nextAlarmId = t.nextAlarmId + 1) ∨
    (∃ step : AlarmRecord → AlarmRecord, (∀ row, RowStep now row (step row)) ∧
      (stmt.exec now t).2.alarms = t.alarms.map step ∧
      (stmt.exec now t).2.nextAlarmId = t.nextAlarmId) := by
  cases stmt with
  | insertAlarm alarm => exact .inl ⟨alarm, rfl, rfl, rfl⟩
  | updateAlarmWebhookStatus id status =>
      obtain ⟨step, hstep, he⟩ := updateWhere_steps now t.alarms (·.id == id) _
        fun row _ => RowStep.webhook (some status) row.webhookRetriesLeft row.webhookNextRetryAt
      exact .inr ⟨step, hstep, he, rfl⟩
  | updateAlarmWebhookStatusWithRetry id status retriesLeft nextRetryAt =>
      obtain ⟨step, hstep, he⟩ := updateWhere_steps now t.alarms (·.id == id) _
        fun row _ => RowStep.webhook (some status) retriesLeft nextRetryAt
      exact .inr ⟨step, hstep, he, rfl⟩
  | decrementRetryAndScheduleNext id intervalSecs =>
      obtain ⟨step, hstep, he⟩ := updateWhere_steps now t.alarms
        (fun row => row.id == id && decide (0 < row.webhookRetriesLeft)) _ fun row _ =>
          RowStep.webhook row.webhookStatus (row.webhookRetriesLeft - 1)
            (some (now + intervalSecs * nanosPerSecond))
      exact .inr ⟨step, hstep, he, rfl⟩
  | markWebhookFinalFailure id =>
      obtain ⟨step, hstep, he⟩ := updateWhere_steps now t.alarms (·.id == id) _
        fun row _ => RowStep.webhook (some 2) 0 none
      exact .inr ⟨step, hstep, he, rfl⟩
  | markWebhookSuccess id =>
      obtain ⟨step, hstep, he⟩ := updateWhere_steps now t.alarms (·.id == id) _
        fun row _ => RowStep.webhook (some 0) 0 none
      exact .inr ⟨step, hstep, he, rfl⟩
  | ackAlarm id =>
      obtain ⟨step, hstep, he⟩ := updateWhere_steps now t.alarms
        (fun row => row.id == id && row.status == .active) AlarmRecord.acked
        fun row h => RowStep.ack (by simp at h; exact h.2)
      exact .inr ⟨step, hstep, he, rfl⟩
  | clearAlarm id =>
      obtain ⟨step, hstep, he⟩ := updateWhere_steps now t.alarms
        (fun row => row.id == id && row.status != .cleared) (AlarmRecord.clearedNow now)
        fun row h => RowStep.clear (by simp at h; exact h.2)
      exact .inr ⟨step, hstep, he, rfl⟩
  | _ => exact .inr ⟨id, fun _ => .same, by simp [Sql.exec], rfl⟩

-- The same for any operation of the process.
theorem sem_alarms (op : Op) (w : World) :
    (∃ alarm, op = .sql (.insertAlarm alarm) ∧ w.sqlFaults 0 = none ∧
      (sem op w).2.tables.alarms = w.tables.alarms ++
        [alarm.toRecord w.tables.nextAlarmId w.tick.clock] ∧
      (sem op w).2.tables.nextAlarmId = w.tables.nextAlarmId + 1) ∨
    (∃ step : AlarmRecord → AlarmRecord, (∀ row, RowStep w.tick.clock row (step row)) ∧
      (sem op w).2.tables.alarms = w.tables.alarms.map step ∧
      (sem op w).2.tables.nextAlarmId = w.tables.nextAlarmId) := by
  by_cases hsql : ∃ stmt, op = .sql stmt
  · obtain ⟨stmt, rfl⟩ := hsql
    cases hfault : w.sqlFaults 0 with
    | some error =>
        exact .inr ⟨id, fun _ =>
          .same, by simp [sem, Op.exec, hfault], by simp [sem, Op.exec, hfault]⟩
    | none =>
        rcases exec_alarms stmt w.tick.clock w.tables with
          ⟨alarm, rfl, ha, hn⟩ | ⟨step, hstep, ha, hn⟩
        · exact .inl ⟨alarm, rfl, rfl, by simp [sem, Op.exec, hfault, Sql.exec], by
            simp [sem, Op.exec, hfault, Sql.exec]⟩
        · exact .inr ⟨step, hstep, by simpa [sem, Op.exec, hfault] using ha, by
            simpa [sem, Op.exec, hfault] using hn⟩
  · have hwrites : op.writes ≠ some .alarms := by
      cases op <;> simp_all [Op.writes]
    obtain ⟨ha, hn⟩ := sem_same .alarms hwrites w
    exact .inr ⟨id, fun _ => .same, by simpa using ha, hn⟩

section Fresh

-- The alarm ids are unique and below the next one.
structure World.Fresh (w : World) : Prop where
  nodup : (w.tables.alarms.map (·.id)).Nodup
  lt : ∀ row ∈ w.tables.alarms, row.id < w.tables.nextAlarmId

variable {w : World}

theorem World.Fresh.step (h : w.Fresh) (op : Op) : (sem op w).2.Fresh := by
  rcases sem_alarms op w with ⟨alarm, -, -, ha, hn⟩ | ⟨step, hstep, ha, hn⟩
  · constructor
    · rw [ha, List.map_append, List.nodup_append]
      refine ⟨h.nodup, by simp, ?_⟩
      intro id hid other hother
      obtain ⟨row, hrow, rfl⟩ := List.mem_map.mp hid
      have hlt := h.lt row hrow
      simp only [List.map_cons, List.map_nil, List.mem_singleton, NewAlarm.toRecord] at hother
      omega
    · rw [ha, hn]
      intro row hrow
      rcases List.mem_append.mp hrow with hrow | hrow
      · have := h.lt row hrow
        omega
      · rw [List.mem_singleton.mp hrow]
        simp only [NewAlarm.toRecord]
        omega
  · have hids : (w.tables.alarms.map step).map (·.id) = w.tables.alarms.map (·.id) := by
      simp only [List.map_map, Function.comp_def, (hstep _).sameAlarm.id]
    refine ⟨by rw [ha, hids]; exact h.nodup, ?_⟩
    rw [ha, hn]
    intro row hrow
    obtain ⟨old, hold, rfl⟩ := List.mem_map.mp hrow
    rw [(hstep old).sameAlarm.id]
    exact h.lt old hold

theorem World.Fresh.final {α : Type} (program : M α) (h : w.Fresh) : (program.final sem w).Fresh :=
  program.uses_true.final _ (fun op _ _ h => h.step op) h

end Fresh

section Creates

variable (ctx : TriggerContext) (rule : AlarmRule)

-- `w'` has one alarm more than `w`, of this rule and device.
def Creates (w w' : World) : Prop :=
  w'.tables.nextAlarmId = w.tables.nextAlarmId + 1 ∧ ∃ row ∈ w'.tables.alarms,
    row.id = w.tables.nextAlarmId ∧ row.ruleId = rule.id ∧ row.deviceId = ctx.deviceId

variable {ctx rule}

theorem Creates.step {op : Op} {w w' : World} (h : Creates ctx rule w w') (hop : op.Reports) :
    Creates ctx rule w (sem op w').2 := by
  obtain ⟨hnext, row, hrow, hid, hrule, hdevice⟩ := h
  rcases sem_alarms op w' with ⟨alarm, rfl, -⟩ | ⟨step, hstep, ha, hn⟩
  · exact absurd hop (by simp [Op.Reports])
  · have hsame := (hstep row).sameAlarm
    exact ⟨hn.trans hnext, step row, by rw [ha]; exact List.mem_map_of_mem hrow, hsame.id.trans hid,
      hsame.ruleId.trans hrule, hsame.deviceId.trans hdevice⟩

variable (ctx rule) in
theorem executeActions_creates (repo : AlarmRepo) (actions : List Json) {w : World}
    (hup : w.sqlFaults 0 = none) :
    Creates ctx rule w ((executeActions repo actions ctx rule.id rule.name).final sem w) := by
  have hwp : (executeActions repo actions ctx rule.id rule.name).wp sem
      (fun _ _ w' => Creates ctx rule w w') [] w := by
    refine executeActions_wp (fun _ w' => Creates ctx rule w w') (fun _ _ _ hop h => h.step hop) ?_
    refine ⟨by simp [sem, Op.exec, hup, Sql.exec], (newAlarm (parseActions actions) ctx rule.id
      rule.name).toRecord w.tables.nextAlarmId w.tick.clock, ?_, rfl, rfl, rfl⟩
    simp [sem, Op.exec, hup, Sql.exec]
  exact (Prog.wp_iff _ _ _).mp hwp

-- With the database up, an alarm is created exactly when the trigger is not skipped.
theorem fire_creates_iff (repo : AlarmRepo) {cache : RuleCache} {marks tracks : Part}
    (hfoot : cache.stateStore.Footprint marks tracks) (hmarks : marks ≠ .alarms) {w : World}
    (hup : ∀ n, w.sqlFaults n = none) :
    Creates ctx rule w ((fire repo nowUtc ctx cache rule).final sem w) ↔
      ((dedupCheck ctx rule w cache).run sem w.tick).1 = false := by
  have hcheck := (hfoot.checkDedup rule.id ctx.deviceId rule.throttleMinutes.toInt
      w.tick.clock).same
    .alarms (by simp) w.tick
  have hmark := (hfoot.markTriggered rule.id ctx.deviceId rule.throttleMinutes.toInt).same
    .alarms (by simpa using hmarks.symm) ((dedupCheck ctx rule w cache).final sem w.tick)
  cases hskip : ((dedupCheck ctx rule w cache).run sem w.tick).1 with
  | true =>
      rw [fire_final_skipped ctx rule w hskip]
      simp only [reduceCtorEq, iff_false]
      rintro ⟨hnext, -⟩
      rw [hcheck.2, World.tick_tables] at hnext
      omega
  | false =>
      rw [fire_final_passed ctx rule w hskip]
      have hup' := final_sqlUp (dedupCheck ctx rule w cache) (w := w.tick) hup
      have hcreates := executeActions_creates ctx rule repo (rule.actions.asArray.getD [])
        (final_sqlUp (cache.stateStore.markTriggered rule.id ctx.deviceId
          rule.throttleMinutes.toInt) hup' 0)
      simp only [Creates, hmark.2, hcheck.2, World.tick_tables] at hcreates ⊢
      exact iff_of_true hcreates trivial

end Creates

end RmqttThings.RuleEngine
