import RmqttThings.Api.PendingRetries

namespace RmqttThings.Api

open Effects RuleEngine

section Course

-- What `retry_single_webhook` answers for the alarm, in an iteration that has selected
-- these rows and is at this state.
def retryResults (repo : AlarmRepo) (id : Int) : List AlarmRecord → World → List Bool
  | [], _ => []
  | alarm :: pending, w =>
      let answer := (retrySingleWebhook alarm).run sem w
      (if alarm.id = id then [answer.1.isOk] else []) ++
        retryResults repo id pending ((recordRetry repo alarm.id answer.1).final sem answer.2)

-- Only an iteration of the loop retries an alarm.
def jobResults (repo : AlarmRepo) (id : Int) : Job → World → List Bool
  | .webhookRetry, w =>
      let selected : Except String (List AlarmRecord) := (sem (.sql .queryPendingRetries) w).1
      match selected with
      | .ok pending => retryResults repo id pending (sem (.sql .queryPendingRetries) w).2
      | .error _ => []
  | _, _ => []

-- The results of the retries of the alarm in these tasks, in their order.
def retriesOf (state : ApiState) (id : Int) : List Job → World → List Bool
  | [], _ => []
  | job :: jobs, w =>
      jobResults state.alarm id job w ++ retriesOf state id jobs ((work state job).final sem w)

theorem retriesOf_append (state : ApiState) (id : Int) (before after : List Job) (w : World) :
    retriesOf state id (before ++ after) w =
      retriesOf state id before w ++ retriesOf state id after
        ((Prog.forEach before (work state)).final sem w) := by
  induction before generalizing w with
  | nil => rfl
  | cons job jobs ih =>
      simp only [List.cons_append, retriesOf, ih, List.append_assoc, Prog.final_forEach_cons]

-- The retry columns that belong to a sequence of results, for `n` configured retries.
inductive Course (n : Int) : List Bool → RetryColumns → Prop where
  | unrecorded : Course n [] .initial
  | pending (failures : Nat) (h : failures < n) :
      Course n (List.replicate failures false) ⟨some 1, n - failures, true⟩
  | delivered (failures : Nat) (h : failures < n) :
      Course n (List.replicate failures false ++ [true]) (.settled 0)
  | exhausted (failures : Nat) (h : failures = n) :
      Course n (List.replicate failures false) (.settled 2)

variable {n : Int} {results more : List Bool} {columns columns' : RetryColumns}

theorem Course.length_le (h : Course n results columns) (hn : 0 ≤ n) :
    (results.length : Int) ≤ n := by
  cases h with
  | unrecorded => simpa using hn
  | pending failures h =>
      rw [List.length_replicate]
      omega
  | delivered failures h =>
      rw [List.length_append, List.length_replicate, List.length_singleton]
      omega
  | exhausted failures h =>
      rw [List.length_replicate]
      omega

theorem Course.of_pending (h : Course n results columns) (hstatus : columns.status = some 1) :
    ∃ failures : Nat, failures < n ∧ results = List.replicate failures false ∧
      columns = ⟨some 1, n - failures, true⟩ := by
  cases h with
  | pending failures h => exact ⟨failures, h, rfl, rfl⟩
  | _ => cases hstatus

theorem Course.eq_initial (h : Course n results columns) (hstatus : columns.status = none) :
    columns = .initial := by
  cases h with
  | unrecorded => rfl
  | _ => cases hstatus

-- A success is the last result.
theorem Course.last_of_true (h : Course n results columns) {index : Nat}
    (htrue : results[index]? = some true) :
    index + 1 = results.length ∧ columns = .settled 0 := by
  have hfalse (failures : Nat) : (List.replicate failures false)[index]? ≠ some true := by
    intro he
    have hmem := List.mem_of_getElem? he
    simp at hmem
  cases h with
  | unrecorded => simp at htrue
  | pending failures h => exact absurd htrue (hfalse failures)
  | delivered failures h =>
      refine ⟨?_, rfl⟩
      by_cases hlt : index < failures
      · rw [List.getElem?_append_left (by simpa using hlt)] at htrue
        exact absurd htrue (hfalse failures)
      · have hbound := (List.getElem?_eq_some_iff.mp htrue).1
        rw [List.length_append, List.length_replicate, List.length_singleton] at hbound ⊢
        omega
  | exhausted failures h => exact absurd htrue (hfalse failures)

-- A terminal state has no continuation.
theorem Course.terminal (h : Course n results columns) (hn : 0 < n)
    (h' : Course n (results ++ more) columns')
    (hstatus : columns.status = some 0 ∨ columns.status = some 2) :
    more = [] ∧ columns' = columns := by
  cases h with
  | unrecorded => simp [RetryColumns.initial] at hstatus
  | pending failures h => simp at hstatus
  | delivered failures h =>
      have htrue : (List.replicate failures false ++ [true] ++ more)[failures]? = some true := by
        simp
      obtain ⟨hlength, he⟩ := h'.last_of_true htrue
      refine ⟨List.eq_nil_of_length_eq_zero ?_, he⟩
      simp only [List.length_append, List.length_replicate, List.length_singleton] at hlength
      omega
  | exhausted failures h =>
      have hlength := h'.length_le hn.le
      simp only [List.length_append, List.length_replicate] at hlength
      obtain rfl : more = [] := List.eq_nil_of_length_eq_zero (by omega)
      refine ⟨rfl, ?_⟩
      rw [List.append_nil] at h'
      generalize hresults : List.replicate failures false = results at h'
      have hcount : (results.length : Int) = n := by rw [← hresults, List.length_replicate, h]
      cases h' with
      | unrecorded =>
          rw [List.length_nil] at hcount
          omega
      | pending other hother =>
          rw [List.length_replicate] at hcount
          omega
      | delivered other hother =>
          have hmem : true ∈ List.replicate failures false := by simp [hresults]
          simp at hmem
      | exhausted other hother => rfl

end Course

section Keeping

variable {id : Int}

-- The operation leaves the retry columns of the alarm alone.
def Avoids (id : Int) (op : Op) : Prop := ∀ answer : op.Ans, ¬Touches id ⟨op, answer⟩

theorem avoids_of_keepsAlarms {op : Op} (h : KeepsAlarms op) : Avoids id op := by
  rintro answer ⟨⟩ <;> exact h rfl

theorem avoids_sendWebhook (url : String) (payload : Json) : Avoids id (.sendWebhook url payload) :=
  avoids_of_keepsAlarms nofun

theorem avoids_sendWebhooks (payload : Json) (urls : List String) (anyFailed : Bool) :
    (sendWebhooks payload urls anyFailed).Uses (Avoids id) := by
  induction urls generalizing anyFailed with
  | nil => trivial
  | cons url urls ih =>
      refine ⟨avoids_sendWebhook url payload, fun sent => ?_⟩
      cases sent <;> exact ih _

theorem avoids_recordWebhooks (repo : AlarmRepo) {other : Int} (hne : other ≠ id) (failed : Bool) :
    (recordWebhooks repo other failed).Uses (Avoids id) := by
  unfold recordWebhooks
  split_ifs
  · refine ⟨avoids_of_keepsAlarms nofun, fun now => ⟨?_, fun _ => trivial⟩⟩
    rintro answer ⟨⟩
    exact hne rfl
  · refine ⟨?_, fun _ => trivial⟩
    rintro answer ⟨⟩
    exact hne rfl

variable (id) in
theorem avoids_retrySingleWebhook (alarm : AlarmRecord) :
    (retrySingleWebhook alarm).Uses (Avoids id) := by
  have hresend (payload : Json) (urls : List String) :
      (resendWebhooks payload urls).Uses (Avoids id) := by
    induction urls with
    | nil => trivial
    | cons url urls ih =>
        refine ⟨avoids_sendWebhook url payload, fun sent => ?_⟩
        cases sent with
        | ok _ => exact ih
        | error _ => trivial
  refine ⟨avoids_of_keepsAlarms nofun, fun found => ?_⟩
  rcases found with e | _ | actions
  · trivial
  · trivial
  · simp only [Prog.pure_eq, Prog.ret_bind]
    split
    · trivial
    · exact hresend _ _

theorem avoids_recordRetry (repo : AlarmRepo) {other : Int} (hne : other ≠ id)
    (result : Except String Unit) :
    (recordRetry repo other result).Uses (Avoids id) := by
  have hmark {op : Op} (hop : ∀ answer : op.Ans, Touches id ⟨op, answer⟩ → other = id) :
      Avoids id op :=
    fun answer h => hne (hop answer h)
  cases result with
  | ok _ =>
      refine ⟨hmark fun answer h => ?_, fun _ => trivial⟩
      cases h
      rfl
  | error e =>
      refine ⟨hmark fun answer h => ?_, fun answer => ?_⟩
      · cases h
        rfl
      rcases answer with e | _ | remaining
      · trivial
      · trivial
      · simp only [Prog.pure_eq, Prog.ret_bind]
        split_ifs
        · refine ⟨hmark fun answer h => ?_, fun _ => trivial⟩
          cases h
          rfl
        · trivial

theorem avoids_retryAlarm (repo : AlarmRepo) {alarm : AlarmRecord} (hne : alarm.id ≠ id) :
    (retryAlarm repo alarm).Uses (Avoids id) :=
  (avoids_retrySingleWebhook id alarm).bind fun result => avoids_recordRetry repo hne result

end Keeping

section Runs

variable {state : ApiState} {n id : Int} {results : List Bool} {past : Past} {w : World}

-- The statements of the retry loop; nothing else issues them.
def OfRetryLoop : Sql → Prop
  | .queryPendingRetries | .getRuleActions _ | .decrementRetryAndScheduleNext
      _ _ | .markWebhookFinalFailure _
  | .markWebhookSuccess _ => True
  | _ => False

def LoopUp (past : Past) : Prop :=
  ∀ stmt error, OfRetryLoop stmt → (⟨.sql stmt, .error error⟩ : Event Op.Ans) ∉ past

theorem LoopUp.of_suffix {past' : Past} (h : LoopUp past') (hsuffix : past <:+ past') :
    LoopUp past :=
  fun stmt error hstmt hmem => h stmt error hstmt (hsuffix.subset hmem)

theorem LoopUp.head {stmt : Sql} {answer : (Op.sql stmt).Ans}
    (h : LoopUp (⟨.sql stmt, answer⟩ :: past))
    (hstmt : OfRetryLoop stmt) : ∃ value, answer = .ok value := by
  cases answer with
  | ok value => exact ⟨value, rfl⟩
  | error error => exact absurd List.mem_cons_self (h stmt error hstmt)

-- The failure of the first delivery has been written to the row.
def Recorded (id : Int) (past : Past) : Prop :=
  ∃ left nextRetryAt, (⟨.sql (.updateAlarmWebhookStatusWithRetry id 1 left nextRetryAt), .ok ()⟩ :
    Event Op.Ans) ∈ past

-- What holds of the alarm behind these results, as long as the statements of the loop
-- have succeeded.
structure OnCourse (n id : Int) (results : List Bool) (past : Past) (w : World) : Prop where
  fresh : w.Fresh
  exists_row : retryAt w id ≠ none
  course : LoopUp past → ∃ columns, retryAt w id = some columns ∧ Course n results columns ∧
    (Recorded id past → columns ≠ .initial)

-- The alarm is pending behind failures only.
def Due (n id : Int) (results : List Bool) (w : World) : Prop :=
  ∃ failures : Nat, failures < n ∧ results = List.replicate failures false ∧
    retryAt w id = some ⟨some 1, n - failures, true⟩

theorem retryAt_ne_none_step (hfresh : w.Fresh) (h : retryAt w id ≠ none) (op : Op) :
    retryAt (sem op w).2 id ≠ none := by
  obtain ⟨columns, hcolumns⟩ := Option.ne_none_iff_exists'.mp h
  exact Option.ne_none_iff_exists'.mpr ⟨_, retryAt_step hfresh op hcolumns⟩

theorem OnCourse.keep (h : OnCourse n id results past w) (op : Op)
    (htouch : ¬Touches id ⟨op, (sem op w).1⟩) :
    OnCourse n id results (⟨op, (sem op w).1⟩ :: past) (sem op w).2 := by
  refine ⟨h.fresh.step op, retryAt_ne_none_step h.fresh h.exists_row op, fun hup => ?_⟩
  obtain ⟨columns, hrow, hcourse, hrecorded⟩ := h.course (hup.of_suffix (List.suffix_cons _ _))
  refine ⟨columns, by rw [retryAt_untouched h.fresh op htouch, hrow], hcourse,
    fun hrecord => hrecorded ?_⟩
  obtain ⟨left, nextRetryAt, hmem⟩ := hrecord
  rcases List.mem_cons.mp hmem with he | hmem
  · exact absurd (he ▸ .retry 1 left nextRetryAt) htouch
  · exact ⟨left, nextRetryAt, hmem⟩

theorem OnCourse.avoid (h : OnCourse n id results past w) {op : Op} (hop : Avoids id op) :
    OnCourse n id results (⟨op, (sem op w).1⟩ :: past) (sem op w).2 :=
  h.keep op (hop _)

theorem Due.avoid (hfresh : w.Fresh) (h : Due n id results w) {op : Op} (hop : Avoids id op) :
    Due n id results (sem op w).2 := by
  obtain ⟨failures, hlt, hresults, hrow⟩ := h
  exact ⟨failures, hlt, hresults, by rw [retryAt_untouched hfresh op (hop _), hrow]⟩

theorem onCourse_of_avoids {α : Type} {program : M α} (hprogram : program.Uses (Avoids id))
    (h : OnCourse n id results past w) : program.wp sem (fun _ => OnCourse n id results) past w :=
  hprogram.wp (OnCourse n id results) (fun _ _ _ hop h => h.avoid hop) h

theorem settled_ne_initial (status : Int16) : RetryColumns.settled status ≠ .initial := by
  simp [RetryColumns.settled, RetryColumns.initial]

-- A failed retry counts one down, and the statement answers what is left.
theorem Due.decrement (hfresh : w.Fresh) (h : Due n id results w) {secs : Int}
    {answer : Option Int16}
    (hanswer : (sem (.sql (.decrementRetryAndScheduleNext id secs)) w).1 = .ok answer) :
    ∃ (failures : Nat) (left : Int16), failures < n ∧ answer = some left ∧
      left.toInt = n - (failures + 1 : Nat) ∧
      results ++ [false] = List.replicate (failures + 1) false ∧
      retryAt (sem (.sql (.decrementRetryAndScheduleNext id secs)) w).2 id =
        some ⟨some 1, n - (failures + 1 : Nat), true⟩ := by
  obtain ⟨failures, hlt, rfl, hrow⟩ := h
  obtain ⟨left, rfl, hleft⟩ := decrement_answer hfresh hrow (by simp only; omega) hanswer
  have hcount : left.toInt = n - (failures + 1 : Nat) := by
    simp only at hleft
    omega
  refine ⟨failures, left, hlt, rfl, hcount, List.replicate_succ'.symm, ?_⟩
  rw [retryAt_step hfresh _ hrow, hanswer]
  simp [RetryColumns.after, hcount]

-- What the loop writes for a result moves the alarm one step along its course.
theorem recordRetry_wp (repo : AlarmRepo) (result : Except String Unit)
    (h : OnCourse n id results past w) (hdue : LoopUp past → Due n id results w) :
    (recordRetry repo id result).wp sem (fun _ => OnCourse n id (results ++ [result.isOk]))
      past w := by
  cases result with
  | ok _ =>
      refine ⟨h.fresh.step _, retryAt_ne_none_step h.fresh h.exists_row _, fun hup => ?_⟩
      obtain ⟨failures, hlt, rfl, hrow⟩ := hdue (hup.of_suffix (List.suffix_cons _ _))
      obtain ⟨_, hanswer⟩ := hup.head trivial
      refine ⟨.settled 0, ?_, .delivered failures hlt, fun _ => settled_ne_initial 0⟩
      rw [retryAt_step h.fresh _ hrow, hanswer]
      simp [RetryColumns.after]
  | error e =>
      generalize hop : Op.sql
        (.decrementRetryAndScheduleNext id repo.webhookRetryIntervalSeconds.toInt64.toInt) = op
      have hfresh := h.fresh.step op
      have hexists := retryAt_ne_none_step h.fresh h.exists_row op
      subst hop
      simp only [recordRetry, query, Prog.bind_eq, Prog.perform_bind, Prog.wp_call]
      cases hanswer : (sem (.sql (.decrementRetryAndScheduleNext id
          repo.webhookRetryIntervalSeconds.toInt64.toInt)) w).1 with
      | error error => exact ⟨hfresh, hexists, fun hup => absurd (hup.head trivial) (by simp)⟩
      | ok answer =>
          have hstep := fun hup : LoopUp past => (hdue hup).decrement h.fresh hanswer
          cases answer with
          | none =>
              refine ⟨hfresh, hexists, fun hup => ?_⟩
              obtain ⟨_, _, -, he, -⟩ := hstep (hup.of_suffix (List.suffix_cons _ _))
              cases he
          | some remaining =>
              simp only
              split_ifs with hzero
              · -- The counter is at zero: one more statement ends the alarm.
                refine ⟨hfresh.step _, retryAt_ne_none_step hfresh hexists _, fun hup => ?_⟩
                have hbefore := hup.of_suffix (List.suffix_cons _ _)
                obtain ⟨failures, left, hlt, he, hleft, hresults, hrow⟩ :=
                  hstep (hbefore.of_suffix (List.suffix_cons _ _))
                cases he
                obtain ⟨_, hmarked⟩ := hup.head trivial
                refine ⟨.settled 2, ?_, hresults ▸ .exhausted (failures + 1) (by omega), fun _ =>
                  settled_ne_initial 2⟩
                rw [retryAt_step hfresh _ hrow, hmarked]
                simp [RetryColumns.after]
              · refine ⟨hfresh, hexists, fun hup => ?_⟩
                obtain ⟨failures, left, hlt, he, hleft, hresults, hrow⟩ :=
                  hstep (hup.of_suffix (List.suffix_cons _ _))
                cases he
                exact ⟨_, hrow, hresults ▸ .pending (failures + 1) (by omega),
                  fun _ => by simp [RetryColumns.initial]⟩

-- A retry of the alarm adds its result.
theorem retryAlarm_wp (repo : AlarmRepo) {alarm : AlarmRecord} (halarm : alarm.id = id)
    (h : OnCourse n id results past w) (hdue : LoopUp past → Due n id results w) :
    (retryAlarm repo alarm).wp sem
      (fun _ => OnCourse n id (results ++ [((retrySingleWebhook alarm).run sem w).1.isOk]))
        past w := by
  have hsend := (avoids_retrySingleWebhook id alarm).wp
    (fun past w => OnCourse n id results past w ∧ (LoopUp past → Due n id results w))
    (fun op past w hop h => ⟨h.1.avoid hop, fun hup =>
      (h.2 (hup.of_suffix (List.suffix_cons _ _))).avoid h.1.fresh hop⟩) ⟨h, hdue⟩
  apply Prog.wp_seq (Prog.wp_run hsend)
  rintro result past after ⟨hrun, h, hdue⟩
  rw [halarm, ← hrun]
  exact recordRetry_wp repo result h hdue

-- The alarm is selected only while it is pending.
theorem due_of_selected (h : OnCourse n id results past w) (hup : LoopUp past)
    {now : OffsetDateTime}
    (hmem : id ∈ (w.tables.alarms.filter (·.retryDue now)).map (·.id)) : Due n id results w := by
  obtain ⟨row, hrow, rfl⟩ := List.mem_map.mp hmem
  obtain ⟨halarm, hselected⟩ := List.mem_filter.mp hrow
  obtain ⟨columns, hcolumns, hcourse, -⟩ := h.course hup
  rw [retryAt_of_mem h.fresh halarm] at hcolumns
  obtain rfl := Option.some.inj hcolumns
  simp only [AlarmRecord.retryDue, Bool.and_eq_true, beq_iff_eq] at hselected
  obtain ⟨failures, hlt, hresults, hpending⟩ := hcourse.of_pending hselected.1.1
  exact ⟨failures, hlt, hresults, by rw [retryAt_of_mem h.fresh halarm, hpending]⟩

-- The rows have distinct ids, so that the alarm is retried at most once.
theorem retryLoop_wp (repo : AlarmRepo) (pending : List AlarmRecord)
    (hunique : (pending.map (·.id)).Nodup)
    (h : OnCourse n id results past w) (hdue : LoopUp past → id ∈ pending.map (·.id) →
      Due n id results w) :
    (Prog.forEach pending (retryAlarm repo)).wp sem
      (fun _ => OnCourse n id (results ++ retryResults repo id pending w)) past w := by
  induction pending generalizing results past w with
  | nil => simpa [Prog.forEach, retryResults] using h
  | cons alarm pending ih =>
      rw [List.map_cons, List.nodup_cons] at hunique
      have hafter : (retryAlarm repo alarm).run sem w = ((), (recordRetry repo alarm.id
          ((retrySingleWebhook alarm).run sem w).1).final sem
            ((retrySingleWebhook alarm).run sem w).2) := by
        rw [retryAlarm, Prog.bind_eq, Prog.run_bind]
        rfl
      by_cases halarm : alarm.id = id
      · have hretry := retryAlarm_wp repo halarm h fun hup => hdue hup (by simp [halarm])
        refine Prog.wp_seq (Prog.wp_run hretry) ?_
        rintro _ past after ⟨hrun, h⟩
        have hrest := ih hunique.2 h fun _ hmem => absurd hmem (halarm ▸ hunique.1)
        obtain rfl := (Prod.mk.inj (hrun.trans hafter)).2
        simpa [retryResults, halarm] using hrest
      · have hother := (avoids_retryAlarm repo halarm).wp
            (fun past w => OnCourse n id results past w ∧
          (LoopUp past → id ∈ pending.map AlarmRecord.id → Due n id results w))
            (fun op past w hop h =>
            ⟨h.1.avoid hop, fun hup hmem => (h.2 (hup.of_suffix (List.suffix_cons _ _)) hmem).avoid
              h.1.fresh hop⟩)
          ⟨h, fun hup hmem => hdue hup (List.mem_cons_of_mem _ hmem)⟩
        refine Prog.wp_seq (Prog.wp_run hother) ?_
        rintro _ past after ⟨hrun, h, hdue⟩
        have hrest := ih hunique.2 h hdue
        obtain rfl := (Prod.mk.inj (hrun.trans hafter)).2
        simpa [retryResults, halarm] using hrest

theorem tick_wp (repo : AlarmRepo) (h : OnCourse n id results past w) :
    (webhookRetryTick repo).wp sem
      (fun _ => OnCourse n id (results ++ jobResults repo id .webhookRetry w)) past w := by
  have havoids : Avoids id (.sql .queryPendingRetries) := avoids_of_keepsAlarms nofun
  have hread := h.avoid havoids
  simp only [webhookRetryTick, query, Prog.bind_eq, Prog.perform_bind, Prog.wp_call, jobResults]
  cases hanswer : (sem (.sql .queryPendingRetries) w).1 with
  | error error =>
      rw [hanswer] at hread
      simpa using hread
  | ok pending =>
      have hpending : pending = w.tables.alarms.filter (·.retryDue w.tick.clock) := by
        cases hfault : w.sqlFaults 0 with
        | some error => simp [sem, Op.exec, hfault] at hanswer
        | none => simpa [sem, Op.exec, hfault, Sql.exec, eq_comm] using hanswer
      have hunique : (pending.map (·.id)).Nodup := by
        rw [hpending]
        exact h.fresh.nodup.sublist (List.filter_sublist.map _)
      rw [hanswer] at hread
      refine retryLoop_wp repo pending hunique hread fun hup hmem => ?_
      rw [hpending] at hmem
      exact (due_of_selected h (hup.of_suffix (List.suffix_cons _ _)) hmem).avoid h.fresh havoids

-- Another alarm that fires has an id of its own.
theorem executeActions_onCourse (repo : AlarmRepo) (actions : List Json) (ctx : TriggerContext)
    (ruleId : Int) (ruleName : String) (h : OnCourse n id results past w) :
    (executeActions repo actions ctx ruleId ruleName).wp sem (fun _ => OnCourse n id results)
      past w := by
  have hother := not_reinserted h.fresh h.exists_row (newAlarm (parseActions actions) ctx ruleId
      ruleName)
  have hinsert := h.keep (.sql (.insertAlarm (newAlarm (parseActions actions) ctx ruleId ruleName)))
      (fun htouch => by
    generalize (sem (.sql (.insertAlarm (newAlarm (parseActions actions) ctx ruleId ruleName)))
      w).1 = answer at *
    cases htouch
    exact hother rfl)
  simp only [executeActions, query, Prog.bind_eq, Prog.perform_bind, Prog.wp_call]
  cases hanswer : (sem (.sql (.insertAlarm (newAlarm (parseActions actions) ctx ruleId ruleName)))
    w).1 with
  | error error =>
      rw [hanswer] at hinsert
      exact hinsert
  | ok alarmId =>
      rw [hanswer] at hinsert hother
      have hne : alarmId ≠ id := fun he => hother (by rw [he])
      simp only
      split_ifs
      · exact hinsert
      · apply Prog.wp_seq (onCourse_of_avoids (avoids_sendWebhooks _ _ _) hinsert)
        intro failed past w h
        exact Prog.wp_seq (onCourse_of_avoids (avoids_recordWebhooks repo hne failed) h)
          fun _ _ _ h => h

variable (state) in
-- A task adds the results of its retries of the alarm.
theorem work_wp (job : Job) (h : OnCourse n id results past w) :
    (work state job).wp sem (fun _ => OnCourse n id (results ++ jobResults state.alarm id job w))
      past w := by
  cases job with
  | executeActions actions ctx ruleId ruleName =>
      rw [jobResults, List.append_nil]
      · exact Prog.wp_seq (executeActions_onCourse state.alarm actions ctx ruleId ruleName h)
          fun _ _ _ h => h
      · nofun
  | webhookRetry => exact tick_wp state.alarm h
  | updateAlarmRule other req =>
      have hkeeps := (keepsAlarms_updateAlarmRule state other req).mono fun _ hop =>
        (avoids_of_keepsAlarms hop : Avoids id _)
      rw [jobResults, List.append_nil]
      · exact Prog.wp_seq (onCourse_of_avoids hkeeps h) fun _ _ _ h => h
      · nofun
  | deleteAlarmRule other =>
      have hkeeps := (keepsAlarms_deleteAlarmRule state other).mono fun _ hop =>
        (avoids_of_keepsAlarms hop : Avoids id _)
      rw [jobResults, List.append_nil]
      · exact Prog.wp_seq (onCourse_of_avoids hkeeps h) fun _ _ _ h => h
      · nofun

variable (state) in
theorem jobs_wp (jobs : List Job) (h : OnCourse n id results past w) :
    (Prog.forEach jobs (work state)).wp sem
      (fun _ => OnCourse n id (results ++ retriesOf state id jobs w)) past w := by
  induction jobs generalizing results past w with
  | nil => simpa [Prog.forEach, retriesOf] using h
  | cons job jobs ih =>
      refine Prog.wp_seq (Prog.wp_run (work_wp state job h)) ?_
      rintro _ past after ⟨hrun, h⟩
      obtain rfl : after = (work state job).final sem w := (Prod.mk.inj hrun).2
      simpa [retriesOf] using ih h

-- The first attempt reports a success only when no post has failed.
theorem sendWebhooks_wp (payload : Json) (urls : List String) (anyFailed : Bool)
    (h : OnCourse n id results past w)
    (hnone : anyFailed = false → ∀ event ∈ past, ¬PostFailed event) :
    (sendWebhooks payload urls anyFailed).wp sem (fun failed past w =>
      OnCourse n id results past w ∧
      (failed = false → ∀ event ∈ past, ¬PostFailed event)) past w := by
  induction urls generalizing anyFailed past w with
  | nil => exact ⟨h, hnone⟩
  | cons url urls ih =>
      have hsent := h.avoid (avoids_sendWebhook url payload)
      simp only [sendWebhooks, Prog.bind_eq, Prog.perform_bind, Prog.wp_call]
      cases hanswer : (sem (.sendWebhook url payload) w).1 with
      | ok _ =>
          rw [hanswer] at hsent
          refine ih anyFailed hsent ?_
          intro he event hevent
          rcases List.mem_cons.mp hevent with rfl | hevent
          · rintro ⟨_, _, _, ⟨⟩⟩
          · exact hnone he event hevent
      | error e =>
          rw [hanswer] at hsent
          exact ih true hsent (by simp)

theorem recordFailure_wp (repo : AlarmRepo) (hpos : 0 < repo.webhookMaxRetries)
    (h : OnCourse repo.webhookMaxRetries.toInt id [] past w) :
    (recordWebhooks repo id true).wp sem (fun _ => OnCourse repo.webhookMaxRetries.toInt id [])
      past w := by
  have havoids : Avoids id .nowUtc := avoids_of_keepsAlarms nofun
  have hnow := h.avoid havoids
  simp only [recordWebhooks, if_true, nowUtc, query, Prog.bind_eq, Prog.perform_bind, Prog.wp_call,
    Prog.pure_eq, Prog.wp_ret]
  generalize (sem .nowUtc w).1 + repo.webhookRetryIntervalSeconds.toInt64.toInt * nanosPerSecond =
    instant
  generalize hop : Op.sql (.updateAlarmWebhookStatusWithRetry id 1 repo.webhookMaxRetries
    (some instant)) = op
  refine ⟨hnow.fresh.step op, retryAt_ne_none_step hnow.fresh hnow.exists_row op, fun hup => ?_⟩
  subst hop
  cases hanswer : (sem
    (.sql (.updateAlarmWebhookStatusWithRetry id 1 repo.webhookMaxRetries (some instant)))
      (sem .nowUtc w).2).1 with
  | error error =>
      have hkeep := hnow.keep
          (.sql (.updateAlarmWebhookStatusWithRetry id 1 repo.webhookMaxRetries (some instant)))
        (by rw [hanswer]; nofun)
      rw [hanswer] at hkeep hup
      exact hkeep.course hup
  | ok _ =>
      obtain ⟨columns, hcolumns⟩ := Option.ne_none_iff_exists'.mp hnow.exists_row
      have hleft : 0 < repo.webhookMaxRetries.toInt := by simpa using Int16.lt_iff_toInt_lt.mp hpos
      refine ⟨⟨some 1, repo.webhookMaxRetries.toInt, true⟩, ?_, ?_,
        fun _ => by simp [RetryColumns.initial]⟩
      · rw [retryAt_step hnow.fresh _ hcolumns, hanswer]
        simp [RetryColumns.after]
      · simpa using Course.pending 0 (by simpa using hleft)

-- The run that fires the alarm puts it on its course.
theorem firing_wp (repo : AlarmRepo) (hpos : 0 < repo.webhookMaxRetries) (actions : List Json)
    (ctx : TriggerContext) (ruleId : Int) (ruleName : String) (hfresh : w.Fresh)
    (hinserted : (sem (.sql (.insertAlarm (newAlarm (parseActions actions) ctx ruleId ruleName)))
      w).1 = .ok id) :
    (executeActions repo actions ctx ruleId ruleName).wp sem (fun _ past w =>
      (∃ event ∈ past, PostFailed event) → OnCourse repo.webhookMaxRetries.toInt id [] past w)
        [] w := by
  have hrow := (retryAt_inserted hfresh hinserted.symm).2
  have hcourse : OnCourse repo.webhookMaxRetries.toInt id []
      [⟨.sql (.insertAlarm (newAlarm (parseActions actions) ctx ruleId ruleName)), .ok id⟩]
      (sem (.sql (.insertAlarm (newAlarm (parseActions actions) ctx ruleId ruleName))) w).2 :=
    ⟨hfresh.step _, by simp [hrow], fun _ => ⟨.initial, hrow, .unrecorded, by simp [Recorded]⟩⟩
  simp only [executeActions, query, Prog.bind_eq, Prog.perform_bind, Prog.wp_call]
  rw [hinserted]
  simp only
  split_ifs
  · exact fun _ => hcourse
  · apply Prog.wp_seq (sendWebhooks_wp _ _ false hcourse (by simp [PostFailed]))
    rintro failed past w ⟨h, hnone⟩
    cases failed with
    | true => exact Prog.wp_seq (recordFailure_wp repo hpos h) fun _ _ _ h _ => h
    | false =>
        rintro ⟨event, hevent, hfailed⟩
        rcases List.mem_cons.mp hevent with rfl | hevent
        · obtain ⟨_, _, _, ⟨⟩⟩ := hfailed
        · exact absurd hfailed (hnone rfl event hevent)

end Runs

-- A rule fires, and then any tasks are done one after the other: iterations of the
-- retry loop, edits of the rules, and other alarms.
def firedThen (state : ApiState) (actions : List Json) (ctx : TriggerContext) (ruleId : Int)
    (ruleName : String) (jobs : List Job) : M Unit := do
  let _ ← executeActions state.alarm actions ctx ruleId ruleName
  Prog.forEach jobs (work state)

section Firing

variable {state : ApiState} {start : World} {actions : List Json} {ctx : TriggerContext}
  {ruleId id : Int} {ruleName : String}

theorem firedThen_trace (jobs : List Job) :
    (firedThen state actions ctx ruleId ruleName jobs).trace sem start =
      (Prog.forEach jobs (work state)).trace sem
        ((executeActions state.alarm actions ctx ruleId ruleName).final sem start) ++
      (executeActions state.alarm actions ctx ruleId ruleName).trace sem start := by
  simp only [firedThen, Prog.bind_eq, Prog.trace_bind]

theorem firedThen_suffix (before after : List Job) :
    (firedThen state actions ctx ruleId ruleName before).trace sem start <:+
      (firedThen state actions ctx ruleId ruleName (before ++ after)).trace sem start := by
  simp only [firedThen_trace, Prog.trace_forEach_append, List.append_assoc]
  exact List.suffix_append _ _

theorem firedThen_onCourse (hpos : 0 < state.alarm.webhookMaxRetries) (hfresh : start.Fresh)
    (hinserted : (sem (.sql (.insertAlarm (newAlarm (parseActions actions) ctx ruleId ruleName)))
      start).1 = .ok id)
    (hfailed : ∃ event ∈ (executeActions state.alarm actions ctx ruleId ruleName).trace sem start,
      PostFailed event)
    (jobs : List Job) :
    OnCourse state.alarm.webhookMaxRetries.toInt id
      (retriesOf state id jobs ((executeActions state.alarm actions ctx ruleId ruleName).final
        sem start))
      ((firedThen state actions ctx ruleId ruleName jobs).trace sem start)
      ((firedThen state actions ctx ruleId ruleName jobs).final sem start) := by
  have hfire := (Prog.wp_iff _ _ _).mp (firing_wp state.alarm hpos actions ctx ruleId ruleName
      hfresh hinserted)
  rw [List.append_nil] at hfire
  have hjobs := (Prog.wp_iff _ _ _).mp (jobs_wp state jobs (hfire hfailed))
  rw [List.nil_append] at hjobs
  rw [firedThen_trace]
  simpa only [firedThen, Prog.bind_eq, Prog.final_bind] using hjobs

end Firing

-- An alarm whose first delivery failed is retried at most as often as configured. Its
-- columns follow from the results of its retries, and once it is delivered or exhausted
-- it is neither selected nor changed again.
theorem webhook_retries_bounded (state : ApiState) (hpos : 0 < state.alarm.webhookMaxRetries)
    (start : World) (hfresh : start.Fresh) (actions : List Json) (ctx : TriggerContext)
    (ruleId : Int) (ruleName : String) (id : Int)
    (hinserted : (sem (.sql (.insertAlarm (newAlarm (parseActions actions) ctx ruleId ruleName)))
      start).1 = .ok id)
    (hfailed : ∃ event ∈ (executeActions state.alarm actions ctx ruleId ruleName).trace sem start,
      PostFailed event)
    (before after : List Job)
    (hup : LoopUp ((firedThen state actions ctx ruleId ruleName (before ++ after)).trace sem
      start)) :
    let run := firedThen state actions ctx ruleId ruleName
    let results := fun jobs =>
      retriesOf state id jobs ((executeActions state.alarm actions ctx ruleId ruleName).final
        sem start)
    ∃ columns, retryAt ((run before).final sem start) id = some columns ∧
      Course state.alarm.webhookMaxRetries.toInt (results before) columns ∧
      (results before).length ≤ state.alarm.webhookMaxRetries.toInt ∧
      (Recorded id ((executeActions state.alarm actions ctx ruleId ruleName).trace sem start) →
        columns.status ≠ none) ∧
      (columns.status = some 0 ∨ columns.status = some 2 →
        (∀ row ∈ ((run before).final sem start).tables.alarms, row.id = id → ∀ now,
          row.retryDue now = false) ∧
        results (before ++ after) = results before ∧
        retryAt ((run (before ++ after)).final sem start) id = some columns) := by
  intro run results
  have hcount : 0 < state.alarm.webhookMaxRetries.toInt := by
    simpa using Int16.lt_iff_toInt_lt.mp hpos
  have hsuffix : (run before).trace sem start <:+ (run (before ++ after)).trace sem start :=
    firedThen_suffix before after
  have hbefore := firedThen_onCourse hpos hfresh hinserted hfailed before
  have hafter := firedThen_onCourse hpos hfresh hinserted hfailed (before ++ after)
  obtain ⟨columns, hrow, hcourse, hrecorded⟩ := hbefore.course (hup.of_suffix hsuffix)
  obtain ⟨columns', hrow', hcourse', -⟩ := hafter.course hup
  refine ⟨columns, hrow, hcourse, hcourse.length_le hcount.le, fun hrecord hnone => ?_,
    fun hterminal => ⟨?_, ?_⟩⟩
  · obtain ⟨left, nextRetryAt, hmem⟩ := hrecord
    refine hrecorded ⟨left, nextRetryAt, ?_⟩ ?_
    · rw [firedThen_trace]
      exact List.mem_append_right _ hmem
    · exact hcourse.eq_initial hnone
  · intro row hmem hid now
    rw [← hid, retryAt_of_mem hbefore.fresh hmem] at hrow
    have hstatus : row.webhookStatus = columns.status := by rw [← Option.some.inj hrow]; rfl
    rcases hterminal with he | he <;> simp [AlarmRecord.retryDue, hstatus, he]
  · have hmore := retriesOf_append state id before after
      ((executeActions state.alarm actions ctx ruleId ruleName).final sem start)
    rw [hmore] at hcourse'
    obtain ⟨hnil, rfl⟩ := hcourse.terminal hcount hcourse' hterminal
    refine ⟨?_, hrow'⟩
    rw [hnil, List.append_nil] at hmore
    exact hmore

-- The first post and the first retry fail, and the second of two configured retries succeeds.
theorem webhook_retries_bounded_delivered :
    let start := { hookStart with
      webhooks := fun n => if n < 2 then some "503 Service Unavailable" else none
      delays := fun n => if n = 4 ∨ n = 8 then 60 * 1000000000 else 0 }
    let run := firedThen (hookState 2) hookActions (online "d") 1 "online"
    let fired := (executeActions (hookState 2).alarm hookActions (online "d") 1 "online").final
        sem start
    retriesOf (hookState 2) 1 [.webhookRetry, .webhookRetry] fired = [false, true] ∧
      ∃ columns, Course 2 [false, true] columns ∧
        retriesOf (hookState 2) 1 [.webhookRetry, .webhookRetry, .webhookRetry] fired =
          [false, true] ∧
        retryAt ((run [.webhookRetry, .webhookRetry, .webhookRetry]).final sem start) 1 =
          some columns := by
  intro start run fired
  have hstart : start.tables.alarms = [] := rfl
  have hresults : retriesOf (hookState 2) 1 [.webhookRetry, .webhookRetry] fired =
      [false, true] := by
    decide +kernel
  have hfailed : ∃ event ∈ (executeActions (hookState 2).alarm hookActions (online "d") 1
      "online").trace sem start, PostFailed event := by decide +kernel
  have hstatus : (retryAt ((run [.webhookRetry, .webhookRetry]).final sem start) 1).map (·.status) =
      some (some 0) := by
    decide +kernel
  have hanswered : ∀ event ∈ (run [.webhookRetry, .webhookRetry, .webhookRetry]).trace sem start,
      sqlFailed event = false := by decide +kernel
  have hup : LoopUp ((run [.webhookRetry, .webhookRetry, .webhookRetry]).trace sem start) := by
    intro stmt error _ hmem
    have hbad := hanswered _ hmem
    cases hbad
  obtain ⟨columns, hrow, hcourse, -, -, hterminal⟩ :=
    webhook_retries_bounded (hookState 2) (by decide) start
    ⟨by simp [hstart], by simp [hstart]⟩ hookActions (online "d") 1 "online" 1 rfl hfailed
    [.webhookRetry, .webhookRetry] [.webhookRetry] hup
  rw [hrow] at hstatus
  obtain ⟨-, hsame, hfinal⟩ := hterminal (.inl (Option.some.inj hstatus))
  exact ⟨hresults, columns, hresults ▸ hcourse, hsame.trans hresults, hfinal⟩

end RmqttThings.Api
