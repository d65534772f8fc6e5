import RmqttThings.Api.AlarmHandlers
import RmqttThings.RuleEngine.AlarmTable

namespace RmqttThings.Api

open Effects RuleEngine

section Rows

-- The columns of a row that belong together.
structure Consistent (row : AlarmRecord) : Prop where
  clearedAt : row.clearedAt = none ↔ row.status ≠ .cleared
  acknowledged : row.acknowledged = true ↔ row.status ≠ .active

-- The lifecycle, closed under reflexivity and transitivity.
inductive StatusChange : AlarmStatus → AlarmStatus → Prop where
  | same (status : AlarmStatus) : StatusChange status status
  | acknowledged : StatusChange .active .acknowledged
  | cleared : StatusChange .active .cleared
  | closed : StatusChange .acknowledged .cleared

theorem StatusChange.trans {first second third : AlarmStatus} (h : StatusChange first second)
    (h' : StatusChange second third) : StatusChange first third := by
  cases h <;> cases h' <;> constructor

variable {now : OffsetDateTime} {row row' : AlarmRecord}

theorem statusChange_of_rowStep (h : RowStep now row row') :
    StatusChange row.status row'.status := by
  cases h with
  | same => exact .same _
  | ack hactive =>
      rw [hactive]
      exact .acknowledged
  | clear hopen =>
      simp only [AlarmRecord.clearedNow]
      cases hstatus : row.status with
      | active => exact .cleared
      | acknowledged => exact .closed
      | cleared => exact absurd hstatus hopen
  | webhook => exact .same _

theorem Consistent.step (hrow : Consistent row) (h : RowStep now row row') : Consistent row' := by
  cases h with
  | same => exact hrow
  | ack hactive =>
      have hnone := hrow.clearedAt.mpr (by simp [hactive])
      exact ⟨by simp [AlarmRecord.acked, hnone], by simp [AlarmRecord.acked]⟩
  | clear => exact ⟨by simp [AlarmRecord.clearedNow], by simp [AlarmRecord.clearedNow]⟩
  | webhook => exact ⟨hrow.clearedAt, hrow.acknowledged⟩

-- The instant of the clear is written once.
theorem clearedAt_kept (hrow : Consistent row) (h : RowStep now row row') {instant : OffsetDateTime}
    (hcleared : row.clearedAt = some instant) : row'.clearedAt = some instant := by
  cases h with
  | clear hopen =>
      have hnone := hrow.clearedAt.mpr hopen
      simp [hcleared] at hnone
  | _ => exact hcleared

theorem consistent_toRecord (alarm : NewAlarm) (id : Int) : Consistent (alarm.toRecord id now) :=
  ⟨by simp [NewAlarm.toRecord], by simp [NewAlarm.toRecord]⟩

end Rows

section Table

variable {w : World} {op : Op}

def alarmAt (w : World) (id : Int) : Option AlarmRecord := w.tables.alarms.find? (·.id == id)

variable (op) in
theorem alarmAt_step {id : Int} {row : AlarmRecord} (h : alarmAt w id = some row) :
    ∃ row', alarmAt (sem op w).2 id = some row' ∧ RowStep w.tick.clock row row' := by
  rcases sem_alarms op w with ⟨alarm, -, -, ha, -⟩ | ⟨step, hstep, ha, -⟩
  · refine ⟨row, ?_, .same⟩
    rw [alarmAt, ha, List.find?_append]
    simp only [alarmAt] at h
    rw [h, Option.some_or]
  · refine ⟨step row, ?_, hstep row⟩
    simp only [alarmAt] at h
    rw [alarmAt, ha, find?_map_of_id fun other => (hstep other).sameAlarm.id, h, Option.map_some]

theorem alarmAt_of_mem (hfresh : w.Fresh) {row : AlarmRecord} (h : row ∈ w.tables.alarms) :
    alarmAt w row.id = some row := by
  cases hfound : alarmAt w row.id with
  | none =>
      have hnone := List.find?_eq_none.mp hfound row h
      simp at hnone
  | some other =>
      have hmem := List.mem_of_find?_eq_some hfound
      have hid : other.id = row.id := by simpa using List.find?_some hfound
      rw [List.inj_on_of_nodup_map hfresh.nodup hmem h hid]

theorem consistent_step (h : ∀ row ∈ w.tables.alarms, Consistent row) :
    ∀ row ∈ (sem op w).2.tables.alarms, Consistent row := by
  intro row hrow
  rcases sem_alarms op w with ⟨alarm, -, -, ha, -⟩ | ⟨step, hstep, ha, -⟩
  · rw [ha] at hrow
    rcases List.mem_append.mp hrow with hrow | hrow
    · exact h row hrow
    · rw [List.mem_singleton.mp hrow]
      exact consistent_toRecord alarm _
  · rw [ha] at hrow
    obtain ⟨old, hold, rfl⟩ := List.mem_map.mp hrow
    exact (h old hold).step (hstep old)

end Table

section Replay

-- What every state of a run keeps, the database being up.
structure Sound (w : World) : Prop where
  sqlUp : ∀ n, w.sqlFaults n = none
  fresh : w.Fresh
  consistent : ∀ row ∈ w.tables.alarms, Consistent row

theorem Sound.step {w : World} (h : Sound w) (op : Op) : Sound (sem op w).2 :=
  ⟨sqlUp_step h.sqlUp, h.fresh.step op, consistent_step h.consistent⟩

variable {start : World} (hsound : Sound start)

include hsound in
theorem sound_stateAt (log : Log) : Sound (stateAt start log) := by
  induction log with
  | nil => exact hsound
  | cons entry log ih => exact ih.step entry.2.1

theorem alarmAt_mono (later earlier : Log) {id : Int} {row : AlarmRecord}
    (h : alarmAt (stateAt start earlier) id = some row) :
    ∃ row', alarmAt (stateAt start (later ++ earlier)) id = some row' ∧
      StatusChange row.status row'.status := by
  induction later with
  | nil => exact ⟨row, h, .same _⟩
  | cons entry later ih =>
      obtain ⟨middle, hmiddle, hchange⟩ := ih
      obtain ⟨row', hrow', hstep⟩ := alarmAt_step entry.2.1 hmiddle
      exact ⟨row', hrow', hchange.trans (statusChange_of_rowStep hstep)⟩

end Replay

-- The two requests that move an alarm on: the statement's guard and what it sets.
inductive Transition where
  | ack
  | clear

namespace Transition

def request : Transition → Int → Request
  | .ack, id => .ackAlarm id
  | .clear, id => .clearAlarm id

def guard : Transition → AlarmStatus → Bool
  | .ack, status => status == .active
  | .clear, status => status != .cleared

def set : Transition → OffsetDateTime → AlarmRecord → AlarmRecord
  | .ack, _, row => row.acked
  | .clear, now, row => row.clearedNow now

-- The statement has updated `affected` rows.
def updated : Transition → Int → Nat → Event Op.Ans
  | .ack, id, affected => ⟨.sql (.ackAlarm id), .ok affected⟩
  | .clear, id, affected => ⟨.sql (.clearAlarm id), .ok affected⟩

variable (transition : Transition) {w : World} {id : Int} {affected : Nat}

theorem id_set (now : OffsetDateTime) (row : AlarmRecord) :
    (transition.set now row).id = row.id := by
  cases transition <;> rfl

theorem guard_set (now : OffsetDateTime) (row : AlarmRecord) :
    transition.guard (transition.set now row).status = false := by
  cases transition <;> simp [guard, set, AlarmRecord.acked, AlarmRecord.clearedNow]

-- The guard closes for good.
theorem guard_of_change {first second : AlarmStatus} (h : StatusChange first second)
    (hfirst : transition.guard first = false) : transition.guard second = false := by
  cases transition <;> cases h <;> simp_all [guard]

theorem updated_effect (hanswer : (transition.updated id affected).2 =
    (sem (transition.updated id affected).1 w).1) :
    affected = w.tables.alarms.countP (fun row => row.id == id && transition.guard row.status) ∧
      (sem (transition.updated id affected).1 w).2.tables.alarms = w.tables.alarms.map fun row =>
        if row.id == id && transition.guard row.status then transition.set w.tick.clock row
        else row := by
  cases transition with
  | ack =>
      simp only [updated, sem, Op.exec] at hanswer ⊢
      split at hanswer
      · cases hanswer
      · refine ⟨Except.ok.inj hanswer, rfl⟩
  | clear =>
      simp only [updated, sem, Op.exec] at hanswer ⊢
      split at hanswer
      · cases hanswer
      · refine ⟨Except.ok.inj hanswer, rfl⟩

theorem updated_zero
    (hanswer : (transition.updated id 0).2 = (sem (transition.updated id 0).1 w).1) :
    (sem (transition.updated id 0).1 w).2.tables.alarms = w.tables.alarms := by
  obtain ⟨hcount, halarms⟩ := transition.updated_effect hanswer
  rw [halarms]
  refine (List.map_congr_left fun row hrow => ?_).trans (List.map_id'' (fun _ => rfl) _)
  exact if_neg (List.countP_eq_zero.mp hcount.symm row hrow)

-- An update that affects a row finds it open and closes it.
theorem updated_succ (hfresh : w.Fresh)
    (hanswer : (transition.updated id (affected + 1)).2 =
      (sem (transition.updated id (affected + 1)).1 w).1) :
    ∃ row, alarmAt w id = some row ∧ transition.guard row.status = true ∧
      alarmAt (sem (transition.updated id (affected + 1)).1 w).2 id =
        some (transition.set w.tick.clock row) := by
  obtain ⟨hcount, halarms⟩ := transition.updated_effect hanswer
  obtain ⟨row, hrow, hcond⟩ :=
    List.countP_pos_iff.mp (lt_of_lt_of_eq (Nat.succ_pos affected) hcount)
  simp only [Bool.and_eq_true, beq_iff_eq] at hcond
  obtain ⟨rfl, hguard⟩ := hcond
  have hfound := alarmAt_of_mem hfresh hrow
  refine ⟨row, hfound, hguard, ?_⟩
  rw [alarmAt, halarms, find?_map_of_id]
  · rw [← alarmAt, hfound]
    simp [hguard]
  · intro other
    split_ifs
    · exact transition.id_set _ other
    · rfl

end Transition

section Outcome

abbrev fetched (id : Int) (found : Option AlarmRecord) : Event Op.Ans :=
  ⟨.sql (.getAlarmById id), .ok found⟩

-- What a request of the two kinds has done when it has returned.
inductive Outcome (transition : Transition) (id : Int) : Reply → Past → Prop where
  | success (record : ApiAlarmRecord) (existing final : AlarmRecord) (affected : Nat) :
      Outcome transition id (.alarm record)
        [fetched id (some final), transition.updated id (affected + 1), fetched id (some existing)]
  | missing (error : ApiError) (h : error.status = .notFound) :
      Outcome transition id (.error error) [fetched id none]
  | refused (error : ApiError) (h : error.status = .conflict) (existing : AlarmRecord) :
      Outcome transition id (.error error) [fetched id (some existing)]
  | overtaken (error : ApiError) (h : error.status = .conflict) (existing : AlarmRecord) :
      Outcome transition id (.error error) [transition.updated id 0, fetched id (some existing)]
  | vanished (error : ApiError) (existing : AlarmRecord) (affected : Nat) :
      Outcome transition id (.error error)
        [fetched id none, transition.updated id (affected + 1), fetched id (some existing)]
  | failed (error : ApiError) (past : Past) (stmt : Sql) (text : String)
      (h : (⟨.sql stmt, .error text⟩ : Event Op.Ans) ∈ past) :
      Outcome transition id (.error error) past

variable (state : ApiState) (transition : Transition) (id : Int)

theorem spec_moveAlarm (refuses : AlarmStatus → Bool) (refusal lost : String)
    {update : M (Except String Nat)}
    (hupdate : ∀ past, Prog.Spec (fun _ _ => True) (fun result past' =>
      (∃ stmt text, result = .error text ∧ past' = ⟨.sql stmt, .error text⟩ :: past) ∨
        ∃ affected, result = .ok affected ∧ past' = transition.updated id affected ::
          past) update past) :
    Prog.Spec (fun _ _ => True) (fun result past => Outcome transition id (answer .alarm result)
      past) (moveAlarm state id refuses refusal lost update) [] := by
  refine ⟨trivial, fun found => ?_⟩
  rcases found with text | _ | existing
  · exact .failed _ _ _ text (List.mem_singleton_self _)
  · exact .missing _ rfl
  · simp only [Prog.pure_eq, Prog.ret_bind]
    split_ifs
    · exact .refused _ rfl existing
    · refine Prog.Spec.seq (hupdate _) fun result past hresult => ?_
      rcases hresult with ⟨stmt, text, rfl, rfl⟩ | ⟨affected, rfl, rfl⟩
      · exact .failed _ _ stmt text List.mem_cons_self
      · cases affected with
        | zero => exact .overtaken _ rfl existing
        | succ affected =>
            refine ⟨trivial, fun found => ?_⟩
            rcases found with text | _ | final
            · exact .failed _ _ _ text List.mem_cons_self
            · exact .vanished _ existing affected
            · exact .success _ existing final affected

theorem spec_transition :
    Prog.Spec (fun _ _ => True) (Outcome transition id) (serve state (transition.request id))
      [] := by
  cases transition with
  | ack =>
      refine Prog.Spec.seq (spec_moveAlarm state .ack id _ _ _ fun past =>
        ⟨trivial, fun result => ?_⟩)
        fun _ _ h => h
      cases result with
      | error text => exact .inl ⟨_, text, rfl, rfl⟩
      | ok affected => exact .inr ⟨affected, rfl, rfl⟩
  | clear =>
      refine Prog.Spec.seq (spec_moveAlarm state .clear id _ _ _ fun past =>
        ⟨trivial, fun result => ?_⟩)
        fun _ _ h => h
      cases result with
      | error text => exact .inl ⟨_, text, rfl, rfl⟩
      | ok affected => exact .inr ⟨affected, rfl, rfl⟩

def served : Request → Reply → Past → Prop
  | .ackAlarm id => Outcome .ack id
  | .clearAlarm id => Outcome .clear id
  | _ => fun _ _ => True

theorem spec_served (request : Request) :
    Prog.Spec (fun _ _ => True) (served request) (serve state request) [] := by
  cases request with
  | ackAlarm id => exact spec_transition state .ack id
  | clearAlarm id => exact spec_transition state .clear id
  | _ =>
      exact (serve state _).uses_true.spec _ (fun _ _ _ _ => trivial) (fun _ _ _ _ _ => trivial)
        trivial

theorem outcome_of_returned {moves : List (Move Request)} {start : World} {thread : Nat}
    {reply : Reply}
    (h : (run state moves start).threads[thread]? = some ⟨transition.request id, .ret reply⟩) :
    Outcome transition id reply (Pool.history thread (run state moves start).log) := by
  have hspec := Pool.spec_play sem (serve state) (spec_served state) moves start thread _ h
  cases transition <;> exact hspec

end Outcome

section Lifecycle

variable (state : ApiState) (start : World) (moves : List (Move Request))

def Succeeds (transition : Transition) (id : Int) (thread : Nat) : Prop :=
  ∃ record, (run state moves start).threads[thread]? = some ⟨transition.request id,
    .ret (.alarm record)⟩

-- The lifecycle of the alarms, at any moment of a run. Every status change is one of the
-- three, `cleared_at` is written once, and the two columns follow the status. At most one
-- request of each kind succeeds on an alarm, by the transition that its own update makes;
-- every other one is answered with 404 or 409 and changes nothing.
structure Lifecycle : Prop where
  ids : ((run state moves start).state.tables.alarms.map (·.id)).Nodup
  consistent : ∀ row ∈ (run state moves start).state.tables.alarms, Consistent row
  changes : ∀ step, ∀ row ∈ (run state moves start).state.tables.alarms,
    ∃ row' ∈ (run state (moves ++ [step]) start).state.tables.alarms, row'.id = row.id ∧
      StatusChange row.status row'.status ∧
      ∀ instant, row.clearedAt = some instant → row'.clearedAt = some instant
  once : ∀ transition id first second, Succeeds state start moves transition id first →
    Succeeds state start moves transition id second → first = second
  own : ∀ transition id thread, Succeeds state start moves transition id thread →
    ∃ later affected earlier row now, (run state moves start).log =
        later ++ (thread, transition.updated id affected) :: earlier ∧
      alarmAt (stateAt start earlier) id = some row ∧ transition.guard row.status = true ∧
      alarmAt (stateAt start ((thread, transition.updated id affected) :: earlier)) id =
        some (transition.set now row)
  others : ∀ (transition : Transition) id (thread : Nat) reply,
    (run state moves start).threads[thread]? = some ⟨transition.request id, .ret reply⟩ →
    ¬Succeeds state start moves transition id thread →
    ∃ error, reply = .error error ∧ (error.status = .notFound ∨ error.status = .conflict) ∧
      ∀ later event earlier, (run state moves start).log = later ++ (thread, event) :: earlier →
        (stateAt start ((thread, event) :: earlier)).tables.alarms =
          (stateAt start earlier).tables.alarms

variable {state start moves} (hsound : Sound start)

theorem answered {later earlier : Log} {thread : Nat} {event : Event Op.Ans}
    (hlog : (run state moves start).log = later ++ (thread, event) :: earlier) :
    event.2 = (sem event.1 (stateAt start earlier)).1 :=
  Pool.answered_play sem (serve state) moves start later _ earlier hlog

include hsound

theorem own_update {transition : Transition} {id : Int} {thread : Nat}
    (h : Succeeds state start moves transition id thread) :
    ∃ later affected earlier row now, (run state moves start).log =
        later ++ (thread, transition.updated id (affected + 1)) :: earlier ∧
      alarmAt (stateAt start earlier) id = some row ∧ transition.guard row.status = true ∧
      alarmAt (stateAt start ((thread, transition.updated id (affected + 1)) :: earlier)) id =
        some (transition.set now row) := by
  obtain ⟨record, hthread⟩ := h
  have houtcome := outcome_of_returned state transition id hthread
  generalize hpast : Pool.history thread (run state moves start).log = past at houtcome
  cases houtcome with
  | success _ existing final affected =>
      obtain ⟨later, rest, hlog, -, hrest⟩ := Pool.history_eq_cons hpast
      obtain ⟨middle, earlier, rfl, -, -⟩ := Pool.history_eq_cons hrest
      have hplace : (run state moves start).log = (later ++ (thread, fetched id (some final)) ::
          middle) ++
          (thread, transition.updated id (affected + 1)) :: earlier := by
        rw [hlog]
        simp
      obtain ⟨row, hrow, hguard, hafter⟩ :=
        transition.updated_succ (sound_stateAt hsound earlier).fresh
        (answered hplace)
      exact ⟨_, affected, earlier, row, _, hplace, hrow, hguard, hafter⟩

-- After a success the guard stays closed.
theorem not_updated_twice {transition : Transition} {id : Int} {later between earlier : Log}
    {first second n m : Nat}
    (hlog : (run state moves start).log = later ++ (second, transition.updated id (m + 1)) ::
      (between ++ (first, transition.updated id (n + 1)) :: earlier)) : False := by
  have hfirst : (run state moves start).log = (later ++ (second, transition.updated id (m + 1)) ::
      between) ++
      (first, transition.updated id (n + 1)) :: earlier := by
    rw [hlog]
    simp
  obtain ⟨row, -, -, hset⟩ :=
    transition.updated_succ (sound_stateAt hsound earlier).fresh (answered hfirst)
  obtain ⟨row', hrow', hguard, -⟩ := transition.updated_succ
    (sound_stateAt hsound (between ++ (first, transition.updated id (n + 1)) :: earlier)).fresh
      (answered hlog)
  obtain ⟨row'', hrow'', hchange⟩ := alarmAt_mono between
    ((first, transition.updated id (n + 1)) :: earlier) hset
  obtain rfl := Option.some.inj (hrow'.symm.trans hrow'')
  rw [transition.guard_of_change hchange (transition.guard_set _ row)] at hguard
  cases hguard

theorem succeeds_once {transition : Transition} {id : Int} {first second : Nat}
    (hfirst : Succeeds state start moves transition id first)
    (hsecond : Succeeds state start moves transition id second) : first = second := by
  obtain ⟨later, n, earlier, -, -, hlog, -⟩ := own_update hsound hfirst
  obtain ⟨later', m, earlier', -, -, hlog', -⟩ := own_update hsound hsecond
  rcases Pool.same_or_mem_of_append_eq (hlog.symm.trans hlog') with
    ⟨-, he, -⟩ | ⟨hmem, -⟩ | ⟨hmem, -⟩
  · exact congrArg Prod.fst he
  · obtain ⟨before, between, rfl⟩ := List.append_of_mem hmem
    rw [List.append_assoc, List.cons_append] at hlog'
    exact (not_updated_twice hsound hlog').elim
  · obtain ⟨before, between, rfl⟩ := List.append_of_mem hmem
    rw [List.append_assoc, List.cons_append] at hlog
    exact (not_updated_twice hsound hlog).elim

theorem no_sql_failure {later earlier : Log} {thread : Nat} {stmt : Sql} {text : String}
    (hlog : (run state moves start).log = later ++ (thread, ⟨.sql stmt, .error text⟩) :: earlier) :
    False := by
  have hanswer := answered hlog
  simp [sem, Op.exec, (sound_stateAt hsound earlier).sqlUp] at hanswer

-- An alarm that an update has found is still there when it is fetched again.
theorem not_vanished {transition : Transition} {id : Int} {thread affected : Nat} {past : Past}
    (hpast : Pool.history thread (run state moves start).log =
      fetched id none :: transition.updated id (affected + 1) :: past) : False := by
  obtain ⟨later, rest, hlog, -, hrest⟩ := Pool.history_eq_cons hpast
  obtain ⟨middle, earlier, rfl, -, -⟩ := Pool.history_eq_cons hrest
  have hplace : (run state moves start).log = (later ++ (thread, fetched id none) :: middle) ++
      (thread, transition.updated id (affected + 1)) :: earlier := by
    rw [hlog]
    simp
  obtain ⟨row, -, -, hset⟩ :=
    transition.updated_succ (sound_stateAt hsound earlier).fresh (answered hplace)
  obtain ⟨row', hrow', -⟩ := alarmAt_mono middle
    ((thread, transition.updated id (affected + 1)) :: earlier) hset
  have hanswer := answered hlog
  simp only [sem, Op.exec, World.tick_sqlFaults, (sound_stateAt hsound _).sqlUp] at hanswer
  have hnone := (Except.ok.inj hanswer).trans hrow'
  cases hnone

theorem refused_unchanged {transition : Transition} {id : Int} {thread : Nat} {reply : Reply}
    (hthread : (run state moves start).threads[thread]? = some ⟨transition.request id, .ret reply⟩)
    (hnot : ¬Succeeds state start moves transition id thread) :
    ∃ error, reply = .error error ∧ (error.status = .notFound ∨ error.status = .conflict) ∧
      ∀ later event earlier, (run state moves start).log = later ++ (thread, event) :: earlier →
        (stateAt start ((thread, event) :: earlier)).tables.alarms =
          (stateAt start earlier).tables.alarms := by
  have houtcome := outcome_of_returned state transition id hthread
  have hfetch (found : Option AlarmRecord) (w : World) :
      (sem (fetched id found).1 w).2.tables.alarms = w.tables.alarms :=
    (sem_same .alarms (by simp [Op.writes, Sql.writes]) w).1
  have hmine {later earlier : Log} {event : Event Op.Ans}
      (hlog : (run state moves start).log = later ++ (thread, event) :: earlier) :
      event ∈ Pool.history thread (run state moves start).log :=
        Pool.mem_history.mpr (by rw [hlog]; simp)
  generalize hpast : Pool.history thread (run state moves start).log = past at houtcome hmine
  cases houtcome with
  | success record => exact absurd ⟨record, hthread⟩ hnot
  | missing error h =>
      refine ⟨error, rfl, .inl h, fun later event earlier hlog => ?_⟩
      obtain rfl := List.mem_singleton.mp (hmine hlog)
      exact hfetch _ _
  | refused error h existing =>
      refine ⟨error, rfl, .inr h, fun later event earlier hlog => ?_⟩
      obtain rfl := List.mem_singleton.mp (hmine hlog)
      exact hfetch _ _
  | overtaken error h existing =>
      refine ⟨error, rfl, .inr h, fun later event earlier hlog => ?_⟩
      rcases List.mem_cons.mp (hmine hlog) with rfl | hevent
      · exact transition.updated_zero (answered hlog)
      · obtain rfl := List.mem_singleton.mp hevent
        exact hfetch _ _
  | vanished error existing affected => exact (not_vanished hsound hpast).elim
  | failed error past stmt text h =>
      obtain ⟨later, earlier, hlog⟩ := List.append_of_mem (Pool.mem_history.mp (hpast ▸ h))
      exact (no_sql_failure hsound hlog).elim

theorem alarms_change (step : Move Request) {row : AlarmRecord}
    (hrow : row ∈ (run state moves start).state.tables.alarms) :
    ∃ row' ∈ (run state (moves ++ [step]) start).state.tables.alarms, row'.id = row.id ∧
      StatusChange row.status row'.status ∧
      ∀ instant, row.clearedAt = some instant → row'.clearedAt = some instant := by
  have hkeep : ∃ row' ∈ (run state moves start).state.tables.alarms, row'.id = row.id ∧
      StatusChange row.status row'.status ∧
      ∀ instant, row.clearedAt = some instant → row'.clearedAt = some instant :=
    ⟨row, hrow, rfl, .same _, fun _ h => h⟩
  have hsnoc := Pool.play_snoc sem (serve state) moves step start
  rcases Pool.move_cases sem (serve state) (run state moves start) step with
    ⟨request, -, he⟩ | ⟨thread, request, op, next, -, -, he⟩ | he
  · rw [run, hsnoc, he]
    exact hkeep
  · rw [run, hsnoc, he]
    rw [run, Pool.state_eq_replay] at hrow
    have hstate := sound_stateAt hsound (run state moves start).log
    obtain ⟨row', hrow', hstep⟩ := alarmAt_step op (alarmAt_of_mem hstate.fresh hrow)
    refine ⟨row', ?_, hstep.sameAlarm.id, statusChange_of_rowStep hstep, fun instant h =>
      clearedAt_kept (hstate.consistent row hrow) hstep h⟩
    rw [Pool.performed, Pool.state_eq_replay]
    exact List.mem_of_find?_eq_some hrow'
  · rw [run, hsnoc, he]
    exact hkeep

end Lifecycle

theorem alarm_lifecycle (state : ApiState) (start : World) (hsound : Sound start)
    (moves : List (Move Request)) :
    Lifecycle state start moves where
  ids := by
    rw [Pool.state_eq_replay]
    exact (sound_stateAt hsound _).fresh.nodup
  consistent := by
    rw [Pool.state_eq_replay]
    exact (sound_stateAt hsound _).consistent
  changes step row hrow := alarms_change hsound step hrow
  once _ _ _ _ hfirst hsecond := succeeds_once hsound hfirst hsecond
  own _ _ _ h := by
    obtain ⟨later, affected, earlier, row, now, hown⟩ := own_update hsound h
    exact ⟨later, affected + 1, earlier, row, now, hown⟩
  others _ _ _ _ hthread hnot := refused_unchanged hsound hthread hnot

-- Two requests acknowledge the same alarm, each reading it before either updates it.
theorem alarm_lifecycle_raced_ack :
    let row := (newAlarm [] (online "d") 1 "online").toRecord 1 0
    let start := World.started { Tables.empty with alarms := [row], nextAlarmId := 2 }
    let moves : List (Move Request) :=
      [.spawn (.ackAlarm 1), .spawn (.ackAlarm 1), .step 0, .step 1, .step 0, .step 1, .step 0]
    Lifecycle memoryState start moves ∧
      (run memoryState moves start).threads.map (fun thread => match thread.program with
        | .ret (.alarm record) => some record.status
        | _ => none) = [some .acknowledged, none] := by
  intro row start moves
  refine ⟨alarm_lifecycle memoryState start ⟨fun _ => rfl,
    ⟨by simp [start], by simp [start, row, NewAlarm.toRecord]⟩, ?_⟩ moves, by decide +kernel⟩
  intro other hother
  rw [List.mem_singleton.mp hother]
  exact consistent_toRecord _ _

end RmqttThings.Api
