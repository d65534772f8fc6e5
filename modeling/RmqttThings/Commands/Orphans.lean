import RmqttThings.Effects.Hoare
import RmqttThings.Commands.StatusMachine

namespace RmqttThings.Commands

open Effects

def later {α : Type} (stream : Nat → α) : Nat → α := fun n => stream (n + 1)

@[simp] theorem sem_postPublish_publishes (request : PublishRequest) (w : World) :
    (sem (.postPublish request) w).2.publishes = later w.publishes := rfl

@[simp] theorem sem_sql_publishes (stmt : Sql) (w : World) :
    (sem (.sql stmt) w).2.publishes = w.publishes := by
  simp only [sem, Op.exec]
  cases w.tick.sqlFaults 0 <;> rfl

@[simp] theorem sem_sql_sqlFaults (stmt : Sql) (w : World) :
    (sem (.sql stmt) w).2.sqlFaults = later w.sqlFaults := by
  simp only [sem, Op.exec]
  cases w.tick.sqlFaults 0 <;> rfl

theorem sem_sql_fault (stmt : Sql) {w : World} {error : String} (h : w.sqlFaults 0 = some error) :
    (sem (.sql stmt) w).1 = .error error ∧ (sem (.sql stmt) w).2.tables = w.tables := by
  simp [sem, Op.exec, h]

theorem sem_sql_done (stmt : Sql) {w : World} (h : w.sqlFaults 0 = none) :
    (sem (.sql stmt) w).1 = .ok (stmt.exec w.tick.clock w.tables).1 ∧
      (sem (.sql stmt) w).2.tables = (stmt.exec w.tick.clock w.tables).2 := by
  simp [sem, Op.exec, h]

-- One publication against the answers that the broker has ready: whether one of the
-- attempts is accepted, and the answers that are left.
def tryPublish (publishes : Nat → HttpReply Unit) : (attempts : Nat) → Bool × (Nat → HttpReply Unit)
  | 0 => (false, publishes)
  | attempts + 1 =>
      if (publishes 0).isSuccess then (true, later publishes)
      else tryPublish (later publishes) attempts

-- How often a message is tried.
def MqttConfig.attempts (config : MqttConfig) : Nat :=
  config.propertyCommand.publish.retries.toNat + 1

-- Every failed publication of a loop over `rows` rows that are claimed already is
-- followed by a statement that does not fail.
def FailuresRecorded (attempts : Nat) :
    (rows : Nat) → (Nat → HttpReply Unit) → (Nat → Option String) → Prop
  | 0, _, _ => True
  | rows + 1, publishes, faults =>
      if (tryPublish publishes attempts).1 then FailuresRecorded attempts rows
        (tryPublish publishes attempts).2 faults
      else faults 0 = none ∧ FailuresRecorded attempts rows (tryPublish publishes attempts).2
        (later faults)

-- The same for a loop that claims its rows one by one; a claim that fails ends it.
def ClaimedFailuresRecorded (attempts : Nat) :
    (rows : Nat) → (Nat → HttpReply Unit) → (Nat → Option String) → Prop
  | 0, _, _ => True
  | rows + 1, publishes, faults =>
      faults 0 ≠ none ∨
        if (tryPublish publishes attempts).1 then
          ClaimedFailuresRecorded attempts rows (tryPublish publishes attempts).2 (later faults)
        else faults 1 = none ∧
          ClaimedFailuresRecorded attempts rows (tryPublish publishes attempts).2
            (later (later faults))

section Publication

variable {past : List (Event Op.Ans)} {w : World}

-- What one publication leaves behind.
structure Tried (correlation : String) (attempts : Nat) (w : World) (past : List (Event Op.Ans))
    (ok : Bool) (past' : List (Event Op.Ans)) (w' : World) : Prop where
  ok_eq : ok = (tryPublish w.publishes attempts).1
  events : ∃ events, past' = events ++ past ∧
    (∀ event ∈ events, published event = some correlation) ∧
    (ok = true ↔ ∃ event ∈ events, accepted event = true)
  tables : w'.tables = w.tables
  sqlFaults : w'.sqlFaults = w.sqlFaults
  publishes : w'.publishes = (tryPublish w.publishes attempts).2

theorem wp_publishAttempts (request : PublishRequest) (attempts : Nat) :
    (publishAttempts request attempts).wp sem (Tried request.payload.id attempts w past)
      past w := by
  induction attempts generalizing past w with
  | zero => exact ⟨rfl, ⟨[], rfl, by simp, by simp⟩, rfl, rfl, rfl⟩
  | succ attempts ih =>
      rw [publishAttempts_succ, Prog.wp_call]
      have hanswer : (sem (.postPublish request) w).1 = w.publishes 0 := rfl
      rw [hanswer]
      by_cases hok : (w.publishes 0).isSuccess = true
      · rw [if_pos hok]
        refine ⟨by simp [tryPublish, hok], ⟨[_], rfl, ?_, ?_⟩, rfl, rfl, by simp [tryPublish, hok]⟩
        · simp [published]
        · simp [accepted, hok]
      · rw [if_neg hok]
        apply Prog.wp_mono (ih (w := (sem (.postPublish request) w).2))
        rintro ok past' w' ⟨hok_eq, ⟨events, rfl, hpublished, haccepted⟩, htables, hfaults,
          hpublishes⟩
        refine ⟨by simpa [tryPublish, hok] using hok_eq,
          ⟨events ++ [⟨.postPublish request, w.publishes 0⟩],
          by simp, ?_, ?_⟩, htables, hfaults, by simpa [tryPublish, hok] using hpublishes⟩
        · intro event hevent
          rcases List.mem_append.mp hevent with h | h
          · exact hpublished event h
          · rw [List.mem_singleton.mp h]
            rfl
        · rw [haccepted]
          simp [accepted, hok]

theorem wp_publishCommand (config : MqttConfig) (request : PublishRequest) :
    (publishCommand config request).wp sem
      (fun result => Tried request.payload.id config.attempts w past result.isOk) past w := by
  apply Prog.wp_seq (wp_publishAttempts request _)
  intro ok past' w' h
  cases ok <;> exact h

end Publication

def World.status (queue : Queue) (id : Int) (w : World) : Option CommandStatus :=
  (w.row queue id).map (·.status)

theorem status_congr {w w' : World} (h : w'.tables = w.tables) (queue : Queue) (id : Int) :
    w'.status queue id = w.status queue id := by
  rw [World.status, World.row, h, World.status, World.row]

-- The broker has accepted the message of the row.
def Accepted (queue : Queue) (id : Int) (events : List (Event Op.Ans)) : Prop :=
  ∃ event ∈ events, published event = some (correlationId (queue, id)) ∧ accepted event = true

-- Every row that the call has flipped to Sent is terminal or has been accepted.
def NoOrphan (queue : Queue) (w : World) (events : List (Event Op.Ans)) (w' : World) : Prop :=
  ∀ id, w.status queue id = some .pending → w'.status queue id = some .sent →
    Accepted queue id events

section Accepted

variable {queue : Queue} {id other : Int} {events events' : List (Event Op.Ans)}

theorem accepted_append : Accepted queue id (events ++ events') ↔ Accepted queue id events ∨
    Accepted queue id events' := by
  simp [Accepted, or_and_right, exists_or]

theorem accepted_same (h : ∀ event ∈ events, published event = some (correlationId (queue, id))) :
    Accepted queue id events ↔ ∃ event ∈ events, accepted event = true := by
  constructor
  · rintro ⟨event, hmem, -, ha⟩
    exact ⟨event, hmem, ha⟩
  · rintro ⟨event, hmem, ha⟩
    exact ⟨event, hmem, h event hmem, ha⟩

theorem not_accepted_other (hne : id ≠ other)
    (h : ∀ event ∈ events, published event = some (correlationId (queue, other))) :
    ¬Accepted queue id events := by
  rintro ⟨event, hmem, hp, -⟩
  rw [h event hmem, Option.some.injEq] at hp
  exact hne (congrArg Prod.snd (correlationId_inj hp)).symm

-- Attempts that have all been refused.
theorem not_accepted_refused (hrefused : ¬∃ event ∈ events, accepted event = true) (id : Int) :
    ¬Accepted queue id events := by
  rintro ⟨event, hmem, -, ha⟩
  exact hrefused ⟨event, hmem, ha⟩

theorem not_accepted_sql (stmt : Sql) (answer : Except String stmt.Ans) :
    ¬Accepted queue id [⟨.sql stmt, answer⟩] := by
  rintro ⟨event, hmem, hp, -⟩
  rw [List.mem_singleton.mp hmem] at hp
  cases hp

theorem not_accepted_sql_append (stmt : Sql) (answer : Except String stmt.Ans)
    (h : ¬Accepted queue id events) :
    ¬Accepted queue id ([⟨.sql stmt, answer⟩] ++ events) := by
  rw [accepted_append, not_or]
  exact ⟨not_accepted_sql _ _, h⟩

end Accepted

-- What a drain of the rows `ids` leaves behind: it touches no other row, and no row of
-- its own is left Sent without having been accepted exactly when `recorded` holds.
structure Settled (queue : Queue) (ids : List Int) (recorded : Prop) (w : World)
    (past past' : List (Event Op.Ans)) (w' : World) : Prop where
  frame : ∀ id, id ∉ ids → w'.status queue id = w.status queue id
  events : ∃ events, past' = events ++ past ∧ (∀ id, id ∉ ids → ¬Accepted queue id events) ∧
    ((∀ id ∈ ids, w'.status queue id = some .sent → Accepted queue id events) ↔ recorded)

section Settled

variable {queue : Queue} {ids : List Int} {recorded : Prop} {w w₁ w' : World}
  {past front past' : List (Event Op.Ans)}

-- The row `id` is dealt with first, and the others after it.
theorem Settled.cons {id : Int} {all : Prop}
    (h : Settled queue ids recorded w₁ (front ++ past) past' w') (hid : id ∉ ids)
    (hframe : ∀ other, other ≠ id → w₁.status queue other = w.status queue other)
    (hfront : ∀ other, other ≠ id → ¬Accepted queue other front)
    (hall : all ↔ (w₁.status queue id = some .sent → Accepted queue id front) ∧ recorded) :
    Settled queue (id :: ids) all w past past' w' := by
  obtain ⟨hrest, events, rfl, hother, hiff⟩ := h
  refine ⟨?_, events ++ front, by simp, ?_, ?_⟩
  · intro other ho
    simp only [List.mem_cons, not_or] at ho
    rw [hrest other ho.2, hframe other ho.1]
  · intro other ho
    simp only [List.mem_cons, not_or] at ho
    rw [accepted_append, not_or]
    exact ⟨hother other ho.2, hfront other ho.1⟩
  · rw [hall, ← hiff]
    constructor
    · intro h
      constructor
      · intro hsent
        rcases accepted_append.mp (h id (by simp) (hrest id hid ▸ hsent)) with ha | ha
        · exact absurd ha (hother id hid)
        · exact ha
      · intro other hmem hsent
        rcases accepted_append.mp (h other (List.mem_cons_of_mem _ hmem) hsent) with ha | ha
        · exact ha
        · exact absurd ha (hfront other fun he => hid (he ▸ hmem))
    · rintro ⟨hown, h⟩ other hmem hsent
      rw [accepted_append]
      rcases List.mem_cons.mp hmem with rfl | hmem
      · exact .inr (hown (hrest other hid ▸ hsent))
      · exact .inl (h other hmem hsent)

-- Something that accepts nothing and touches no other row goes before.
theorem Settled.after (h : Settled queue ids recorded w₁ (front ++ past) past' w')
    (hframe : ∀ id, id ∉ ids → w₁.status queue id = w.status queue id)
    (hfront : ∀ id, ¬Accepted queue id front) :
    Settled queue ids recorded w past past' w' := by
  obtain ⟨hrest, events, rfl, hother, hiff⟩ := h
  refine ⟨fun id hid => (hrest id hid).trans (hframe id hid), events ++ front, by simp, ?_, ?_⟩
  · intro id hid
    rw [accepted_append, not_or]
    exact ⟨hother id hid, hfront id⟩
  · rw [← hiff]
    simp [accepted_append, hfront]

-- A call that returns without having touched its rows.
theorem settled_untouched (hsame : ∀ id, w'.status queue id = w.status queue id)
    (hpending : ∀ id ∈ ids, w.status queue id = some .pending)
    (hfront : ∀ id, ¬Accepted queue id front)
    (hrecorded : recorded) : Settled queue ids recorded w past (front ++ past) w' := by
  refine ⟨fun id _ => hsame id, front, rfl, fun id _ => hfront id, ?_⟩
  simp only [hrecorded, iff_true]
  intro id hid hsent
  rw [hsame, hpending id hid] at hsent
  cases hsent

-- A call that gives up with a row that is Sent.
theorem settled_unrecorded {id : Int}
    (hsame : ∀ other, w'.status queue other = w.status queue other) (hid : id ∈ ids)
    (hsent : w.status queue id = some .sent) (hfront : ∀ other, ¬Accepted queue other front)
    (hrecorded : ¬recorded) : Settled queue ids recorded w past (front ++ past) w' := by
  refine ⟨fun other _ => hsame other, front, rfl, fun other _ => hfront other, ?_⟩
  simp only [hrecorded, iff_false, not_forall]
  exact ⟨id, hid, (hsame id).trans hsent, hfront id⟩

theorem Settled.noOrphan_iff (h : Settled queue ids recorded w [] past' w')
    (hpending : ∀ id ∈ ids, w.status queue id = some .pending) :
    NoOrphan queue w past' w' ↔ recorded := by
  obtain ⟨hframe, events, rfl, -, hiff⟩ := h
  rw [← hiff, List.append_nil]
  constructor
  · exact fun h id hid hsent => h id (hpending id hid) hsent
  · intro h id hp hsent
    by_cases hid : id ∈ ids
    · exact h id hid hsent
    · rw [hframe id hid, hp] at hsent
      cases hsent

end Settled

theorem status_of_mem_queue {w : World} {queue : Queue} {productId deviceId : String} {id : Int}
    (h : id ∈ ((w.tables.commands queue).queue productId deviceId).map (·.id)) :
    w.status queue id = some .pending := by
  obtain ⟨row, hrow, -, hpending⟩ := (CommandTable.mem_queue_ids _ _ _ _).mp h
  simp [World.status, World.row, hrow, hpending]

section Properties

variable {config : MqttConfig} {productId deviceId : String}

theorem status_failed {w : World} {id : Int} (h : w.sqlFaults 0 = none)
    (hsent : w.status .property id = some .sent) (other : Int) :
    (sem (.sql (.updateSentCommandsToFailed [id])) w).2.status .property other =
      if other = id then some .failed else w.status .property other := by
  simp only [World.status, World.row, (sem_sql_done _ h).2, Sql.exec, Tables.commands,
    CommandTable.find_update] at hsent ⊢
  cases hrow : w.tables.propertyCommands.find other with
  | none =>
      split_ifs with he
      · rw [← he, hrow] at hsent
        cases hsent
      · rfl
  | some row =>
      have hid := CommandTable.find_id hrow
      split_ifs with he
      · rw [← he, hrow] at hsent
        simp only [Option.map_some, Option.some.injEq] at hsent
        simp [hid, he, hsent]
      · simp [hid, he]

theorem wp_publishProperties (todo : List (CommandRow PropertyCommand))
    (hnodup : (todo.map (·.id)).Nodup) (w : World) (past : List (Event Op.Ans))
    (hsent : ∀ id ∈ todo.map (·.id), w.status .property id = some .sent) :
    (publishProperties config productId deviceId todo).wp sem
      (fun _ => Settled .property (todo.map (·.id))
        (FailuresRecorded config.attempts todo.length w.publishes w.sqlFaults) w past) past w := by
  induction todo generalizing w past with
  | nil => exact ⟨fun _ _ => rfl, [], rfl, by simp [Accepted], by simp [FailuresRecorded]⟩
  | cons row todo ih =>
      rw [List.map_cons, List.nodup_cons] at hnodup
      simp only [List.map_cons, List.mem_cons, forall_eq_or_imp] at hsent
      unfold publishProperties
      apply Prog.wp_seq (wp_publishCommand config _)
      rintro result past₁ w₁ ⟨hok, ⟨tries, rfl, htries, haccepted⟩, htables, hfaults, hpublishes⟩
      have hstatus : ∀ id, w₁.status .property id = w.status .property id :=
        status_congr htables .property
      have hother : ∀ id, id ≠ row.id → ¬Accepted .property id tries :=
        fun id hne => not_accepted_other hne htries
      cases result with
      | ok _ =>
          -- accepted: the row is done with, and stays Sent
          have haccept : Accepted .property row.id tries :=
            (accepted_same htries).mpr (haccepted.mp rfl)
          have hrest := ih hnodup.2 w₁ (tries ++ past) fun id hid => (hstatus id).trans
              (hsent.2 id hid)
          apply Prog.wp_mono hrest
          intro _ past' w' h
          apply h.cons hnodup.1 (fun id _ => hstatus id) hother
          simp only [List.length_cons, FailuresRecorded, ← hok, Except.isOk, Except.toBool, if_true,
            hpublishes, hfaults, haccept, implies_true, true_and]
      | error text =>
          have hrefused : (tryPublish w.publishes config.attempts).1 = false := hok.symm
          have hnone : ∀ id, ¬Accepted .property id tries :=
            not_accepted_refused (haccepted.not.mp (by simp [Except.isOk, Except.toBool]))
          have hrow : w₁.status .property row.id = some .sent := (hstatus _).trans hsent.1
          simp only [query, Prog.bind_eq, Prog.perform_bind, Prog.wp_call]
          cases hfault : w₁.sqlFaults 0 with
          | some error =>
              -- the failure is not recorded: the row stays Sent, and the loop ends
              obtain ⟨hanswer, hsame⟩ := sem_sql_fault (.updateSentCommandsToFailed [row.id]) hfault
              rw [hanswer]
              have hunrecorded : ¬FailuresRecorded config.attempts (row :: todo).length w.publishes
                  w.sqlFaults := by
                simp [FailuresRecorded, hrefused, ← hfaults, hfault]
              have hkept : ∀ id, (sem (.sql (.updateSentCommandsToFailed [row.id])) w₁).2.status
                  .property id =
                  w.status .property id := fun id => (status_congr hsame _ id).trans (hstatus id)
              have hfront := fun id => not_accepted_sql_append
                  (.updateSentCommandsToFailed [row.id])
                (.error error) (hnone id)
              exact settled_unrecorded hkept List.mem_cons_self hsent.1 hfront hunrecorded
          | none =>
              -- the failure is recorded, and the loop goes on
              obtain ⟨hanswer, -⟩ := sem_sql_done (.updateSentCommandsToFailed [row.id]) hfault
              have hafter := status_failed hfault hrow
              rw [hanswer]
              dsimp only
              refine Prog.wp_mono (ih hnodup.2 _ (_ :: (tries ++ past)) ?_) ?_
              · intro id hid
                have hne : id ≠ row.id := fun he => hnodup.1 (he ▸ hid)
                rw [hafter, if_neg hne, hstatus]
                exact hsent.2 id hid
              · intro _ past' w' h
                apply Settled.cons (show Settled _ _ _ _ (([_] ++ tries) ++ past) past' w' from h)
                  hnodup.1
                · intro id hne
                  rw [hafter, if_neg hne, hstatus]
                · exact fun id _ => not_accepted_sql_append _ _ (hnone id)
                · simp only [List.length_cons, FailuresRecorded, hrefused, ← hfaults, hfault,
                    sem_sql_publishes, sem_sql_sqlFaults, hpublishes, hafter]
                  simp

theorem status_claimAll (productId deviceId : String) {w : World} (h : w.sqlFaults 0 = none)
    (id : Int) :
    (sem (.sql (.updatePendingCommandsToSent productId deviceId)) w).2.status .property id =
      if id ∈ (w.tables.propertyCommands.queue productId deviceId).map (·.id) then some .sent
      else w.status .property id := by
  simp only [World.status, World.row, (sem_sql_done _ h).2, Sql.exec, Tables.commands,
    CommandTable.find_update, CommandTable.mem_queue_ids]
  cases w.tables.propertyCommands.find id with
  | none => simp
  | some row =>
      by_cases hcond : CommandTable.ofDevice productId deviceId row = true ∧ row.status = .pending
      · simp [hcond.1, hcond.2]
      · simp [hcond]

theorem wp_sendProperty (config : MqttConfig) (productId deviceId : String) (w : World) :
    (sendPropertyCommandToDevice config productId deviceId).wp sem
      (fun _ => Settled .property ((w.tables.propertyCommands.queue productId deviceId).map (·.id))
        (w.sqlFaults 0 ≠ none ∨ FailuresRecorded config.attempts
          (w.tables.propertyCommands.queue productId deviceId).length w.publishes
            (later w.sqlFaults)) w []) [] w := by
  simp only [sendPropertyCommandToDevice, query, Prog.bind_eq, Prog.perform_bind, Prog.wp_call]
  have hpending : ∀ id ∈ (w.tables.propertyCommands.queue productId deviceId).map (·.id),
      w.status .property id = some .pending := fun id hid => status_of_mem_queue hid
  cases hfault : w.sqlFaults 0 with
  | some error =>
      -- nothing is claimed
      obtain ⟨hanswer, hsame⟩ :=
        sem_sql_fault (.updatePendingCommandsToSent productId deviceId) hfault
      rw [hanswer]
      exact settled_untouched (status_congr hsame _) hpending (fun id => not_accepted_sql _ _)
        (.inl (by simp))
  | none =>
      obtain ⟨hanswer, -⟩ := sem_sql_done (.updatePendingCommandsToSent productId deviceId) hfault
      have hafter := status_claimAll productId deviceId hfault
      have hids : ((w.tables.propertyCommands.queue productId deviceId).map
          (claimed w.tick.clock)).map (·.id) =
          (w.tables.propertyCommands.queue productId deviceId).map (·.id) := by
        simp [claimed, Function.comp_def]
      rw [hanswer]
      simp only [Sql.exec, ne_eq, not_true_eq_false, false_or]
      refine Prog.wp_mono (wp_publishProperties _ ?_ _ _ ?_) ?_
      · rw [hids]
        exact w.tables.propertyCommands.queue_nodup productId deviceId
      · intro id hid
        rw [hafter, if_pos (hids ▸ hid)]
      · intro _ past' w' h
        rw [hids, List.length_map, sem_sql_publishes, sem_sql_sqlFaults] at h
        apply Settled.after (show Settled _ _ _ _ ([_] ++ []) past' w' from h)
        · intro id hid
          rw [hafter, if_neg hid]
        · exact fun id => not_accepted_sql _ _

end Properties

section Actions

variable {config : MqttConfig} {productId deviceId : String}

-- The Pending invocations of the device.
def World.actionQueue (w : World) (productId deviceId : String) :
    List (CommandRow ActionInvocation) :=
  w.tables.actionInvocations.queue productId deviceId

theorem status_claimNext {w : World} {row : CommandRow ActionInvocation}
    {rest : List (CommandRow ActionInvocation)}
    (h : w.sqlFaults 0 = none) (hqueue : w.actionQueue productId deviceId = row :: rest) :
    (sem (.sql (.claimNextPendingAction productId deviceId)) w).1 =
      .ok (some (claimed w.tick.clock row)) ∧
      (sem (.sql (.claimNextPendingAction productId deviceId)) w).2.actionQueue productId deviceId =
        rest ∧
      (sem (.sql (.claimNextPendingAction productId deviceId)) w).2.row .action row.id =
        some (claimed w.tick.clock row) ∧
      ∀ id, (sem (.sql (.claimNextPendingAction productId deviceId)) w).2.status .action id =
        if id = row.id then some .sent else w.status .action id := by
  obtain ⟨hanswer, htables⟩ := sem_sql_done (.claimNextPendingAction productId deviceId) h
  rw [World.actionQueue] at hqueue
  simp only [Sql.exec, hqueue] at hanswer htables
  have hin : row ∈ w.tables.actionInvocations.queue productId deviceId := by simp [hqueue]
  obtain ⟨hmem, -, -, hpending⟩ := (CommandTable.mem_queue _ _ _ _).mp hin
  have hfind := (CommandTable.find_eq_some_iff w.tables.actionInvocations row.id row).mpr
      ⟨hmem, rfl⟩
  refine ⟨hanswer, ?_, ?_, ?_⟩
  · rw [World.actionQueue, htables]
    exact CommandTable.queue_claim hqueue _
  · simp only [World.row, htables, Tables.commands, CommandTable.find_update, hfind]
    simp [hpending, claimed]
  · intro id
    simp only [World.status, World.row, htables, Tables.commands, CommandTable.find_update]
    by_cases he : id = row.id
    · simp [he, hfind, hpending]
    · cases hother : w.tables.actionInvocations.find id with
      | none => simp [he]
      | some other => simp [he, CommandTable.find_id hother]

theorem status_claimEmpty {w : World} (h : w.sqlFaults 0 = none)
    (hqueue : w.actionQueue productId deviceId = []) :
    (sem (.sql (.claimNextPendingAction productId deviceId)) w).1 = .ok none ∧
      (sem (.sql (.claimNextPendingAction productId deviceId)) w).2.tables = w.tables := by
  obtain ⟨hanswer, htables⟩ := sem_sql_done (.claimNextPendingAction productId deviceId) h
  rw [World.actionQueue] at hqueue
  simp only [Sql.exec, hqueue] at hanswer htables
  exact ⟨hanswer, htables⟩

-- A recorded failure of a row that is Sent.
theorem status_actionFailed {w : World} {row : CommandRow ActionInvocation}
    (h : w.sqlFaults 0 = none) (hrow : w.row .action row.id = some row) (hsent : row.status = .sent)
    (hdevice : CommandTable.ofDevice productId deviceId row = true) :
    (sem (.sql (.updateActionInvocationStatus row.id productId deviceId row.body.serviceType
      .failed .sent))
        w).2.actionQueue productId deviceId = w.actionQueue productId deviceId ∧
      ∀ id, (sem (.sql (.updateActionInvocationStatus row.id productId deviceId row.body.serviceType
        .failed .sent))
        w).2.status .action id = if id = row.id then some .failed else w.status .action id := by
  obtain ⟨-, htables⟩ := sem_sql_done
    (.updateActionInvocationStatus row.id productId deviceId row.body.serviceType .failed .sent) h
  constructor
  · rw [World.actionQueue, htables]
    exact CommandTable.queue_update _ _ _ _ (by decide) (by decide) _
  · intro id
    simp only [World.status, World.row, htables, Tables.commands, Sql.exec,
      CommandTable.find_update] at hrow ⊢
    by_cases he : id = row.id
    · simp [he, hrow, hsent, hdevice]
    · cases hother : w.tables.actionInvocations.find id with
      | none => simp [he]
      | some other => simp [he, CommandTable.find_id hother]

-- The row has just been claimed. It is left Sent without having been accepted exactly
-- when the publication fails and the failure cannot be recorded.
theorem wp_publishAction {w : World} {past : List (Event Op.Ans)}
    {row : CommandRow ActionInvocation} (hrow : w.row .action row.id = some row)
    (hsent : row.status = .sent) (hdevice : CommandTable.ofDevice productId deviceId row = true) :
    (publishAction config productId deviceId row).wp sem (fun _ past' w' => ∃ front,
      past' = front ++ past ∧ (∀ id, id ≠ row.id → ¬Accepted .action id front) ∧
      w'.actionQueue productId deviceId = w.actionQueue productId deviceId ∧
      (∀ id, id ≠ row.id → w'.status .action id = w.status .action id) ∧
      w'.publishes = (tryPublish w.publishes config.attempts).2 ∧
      if (tryPublish w.publishes config.attempts).1 then w'.sqlFaults = w.sqlFaults ∧
        Accepted .action row.id front
      else w'.sqlFaults = later w.sqlFaults ∧ ¬Accepted .action row.id front ∧
        (w'.status .action row.id = some .sent ↔ w.sqlFaults 0 ≠ none)) past w := by
  apply Prog.wp_seq (wp_publishCommand config _)
  rintro result past₁ w₁ ⟨hok, ⟨tries, rfl, htries, haccepted⟩, htables, hfaults, hpublishes⟩
  have hqueue : w₁.actionQueue productId deviceId = w.actionQueue productId deviceId := by
    rw [World.actionQueue, htables, World.actionQueue]
  have hrow₁ : ∀ id, w₁.row .action id = w.row .action id := by
    intro id
    rw [World.row, htables, World.row]
  have hstatus₁ : ∀ id, w₁.status .action id = w.status .action id := status_congr htables .action
  have hother : ∀ id, id ≠ row.id → ¬Accepted .action id tries :=
    fun id hne => not_accepted_other hne htries
  cases result with
  | ok _ =>
      refine ⟨tries, rfl, hother, hqueue, fun id _ => hstatus₁ id, hpublishes, ?_⟩
      rw [← hok]
      exact ⟨hfaults, (accepted_same htries).mpr (haccepted.mp rfl)⟩
  | error text =>
      have hnone : ∀ id, ¬Accepted .action id tries :=
        not_accepted_refused (haccepted.not.mp (by simp [Except.isOk, Except.toBool]))
      simp only [query, Prog.bind_eq, Prog.perform_bind, Prog.wp_call, Prog.pure_eq, Prog.wp_ret]
      refine ⟨[_] ++ tries, rfl, fun id _ => not_accepted_sql_append _ _ (hnone id), ?_⟩
      rw [sem_sql_publishes, sem_sql_sqlFaults, ← hok, ← hfaults]
      cases hfault : w₁.sqlFaults 0 with
      | some error =>
          obtain ⟨-, hsame⟩ := sem_sql_fault
            (.updateActionInvocationStatus row.id productId deviceId row.body.serviceType .failed
              .sent) hfault
          have hkept : ∀ id,
              (sem (.sql (.updateActionInvocationStatus row.id productId deviceId
              row.body.serviceType
              .failed .sent)) w₁).2.status .action id = w.status .action id :=
            fun id => (status_congr hsame _ id).trans (hstatus₁ id)
          refine ⟨?_, fun id _ => hkept id, hpublishes, rfl, not_accepted_sql_append _ _ (hnone _),
            ?_⟩
          · rw [World.actionQueue, hsame]
            exact hqueue
          · rw [hkept]
            simp [World.status, hrow, hsent]
      | none =>
          obtain ⟨hqueue', hafter⟩ :=
            status_actionFailed hfault ((hrow₁ _).trans hrow) hsent hdevice
          refine ⟨hqueue'.trans hqueue, ?_, hpublishes, rfl, not_accepted_sql_append _ _ (hnone _),
            ?_⟩
          · intro id hne
            rw [hafter, if_neg hne, hstatus₁]
          · simp [hafter]

theorem wp_sendActions (config : MqttConfig) (productId deviceId : String) (fuel : Nat) (w : World)
    (past : List (Event Op.Ans))
    (hfuel : (w.actionQueue productId deviceId).length < fuel) :
    (sendActionInvocationsToDevice config productId deviceId fuel).wp sem
      (fun result past' w' => result.isSome = true ∧
        Settled .action ((w.actionQueue productId deviceId).map (·.id))
        (ClaimedFailuresRecorded config.attempts (w.actionQueue productId deviceId).length
          w.publishes w.sqlFaults)
        w past past' w') past w := by
  induction fuel generalizing w past with
  | zero => omega
  | succ fuel ih =>
      have hpending : ∀ id ∈ (w.actionQueue productId deviceId).map (·.id), w.status .action id =
          some .pending :=
        fun id hid => status_of_mem_queue hid
      simp only [sendActionInvocationsToDevice, query, Prog.bind_eq, Prog.perform_bind,
        Prog.wp_call]
      cases hfault : w.sqlFaults 0 with
      | some error =>
          -- nothing is claimed, and the loop ends
          obtain ⟨hanswer, hsame⟩ :=
            sem_sql_fault (.claimNextPendingAction productId deviceId) hfault
          rw [hanswer]
          refine ⟨rfl, settled_untouched (status_congr hsame _) hpending
            (fun id => not_accepted_sql _ _) ?_⟩
          cases (w.actionQueue productId deviceId).length with
          | zero => trivial
          | succ rows => exact .inl (by simp [hfault])
      | none =>
          cases hqueue : w.actionQueue productId deviceId with
          | nil =>
              obtain ⟨hanswer, hsame⟩ := status_claimEmpty hfault hqueue
              rw [hanswer]
              exact ⟨rfl, settled_untouched (status_congr hsame _) (by simp)
                (fun id => not_accepted_sql _ _) trivial⟩
          | cons row rest =>
              obtain ⟨hanswer, hrest, hclaimed, hstatus⟩ := status_claimNext hfault hqueue
              have hin : row ∈ w.tables.actionInvocations.queue productId deviceId := by
                rw [show w.tables.actionInvocations.queue productId deviceId =
                  row :: rest from hqueue]
                exact List.mem_cons_self
              have hdevice : CommandTable.ofDevice productId deviceId (claimed w.tick.clock row) =
                  true := by
                obtain ⟨-, hproduct, hdevice, -⟩ := (CommandTable.mem_queue _ _ _ _).mp hin
                simp [CommandTable.ofDevice, claimed, CommandRow.moved, hproduct, hdevice]
              have hnodup := w.tables.actionInvocations.queue_nodup productId deviceId
              rw [show w.tables.actionInvocations.queue productId deviceId =
                row :: rest from hqueue, List.map_cons, List.nodup_cons] at hnodup
              rw [hqueue, List.length_cons] at hfuel
              rw [hanswer]
              apply Prog.wp_seq (wp_publishAction hclaimed rfl hdevice)
              rintro _ past₂ w₂ ⟨front, rfl, hfront, hqueue₂, hframe, hpublishes, hcase⟩
              rw [hrest] at hqueue₂
              refine Prog.wp_mono (ih w₂ _ (by rw [hqueue₂]; omega)) ?_
              rintro drained past' w' ⟨hreturns, h⟩
              rw [hqueue₂] at h
              refine ⟨hreturns, ?_⟩
              have hcond : ClaimedFailuresRecorded config.attempts (rest.length + 1) w.publishes
                  w.sqlFaults ↔
                  (w₂.status .action row.id = some .sent → Accepted .action row.id front) ∧
                    ClaimedFailuresRecorded config.attempts rest.length w₂.publishes
                      w₂.sqlFaults := by
                rw [sem_sql_publishes, sem_sql_sqlFaults] at hcase
                rw [sem_sql_publishes] at hpublishes
                simp only [ClaimedFailuresRecorded, hfault, ne_eq, not_true_eq_false, false_or]
                split_ifs at hcase ⊢ with htried
                · have haccept : Accepted .action row.id front := hcase.2
                  simp only [hcase.1, hpublishes, haccept, implies_true, true_and]
                · have hnone : ¬Accepted .action row.id front := hcase.2.1
                  have hsent : w₂.status .action row.id = some .sent ↔ w.sqlFaults 1 ≠ none :=
                    hcase.2.2
                  simp only [hcase.1, hpublishes, hsent, hnone, imp_false, not_not]
              apply Settled.after (show Settled _ _ _ _ ([_] ++ past) past' w' from
                h.cons hnodup.1 hframe hfront hcond)
              · intro id hid
                simp only [List.mem_cons, not_or] at hid
                rw [hstatus, if_neg hid.1]
              · exact fun id => not_accepted_sql _ _

end Actions

-- Both drains, for every queue, every sequence of broker answers and every choice of
-- failing statements. The second one returns when it is given a round for each Pending
-- row and one for finding none.
theorem drains_leave_no_orphan_iff (config : MqttConfig) (productId deviceId : String) (w : World)
    (spare : Nat) :
    let properties := sendPropertyCommandToDevice config productId deviceId
    let actions := sendActionInvocationsToDevice config productId deviceId
      ((w.actionQueue productId deviceId).length + 1 + spare)
    (NoOrphan .property w (properties.trace sem w) (properties.final sem w) ↔
      w.sqlFaults 0 ≠ none ∨ FailuresRecorded config.attempts
        (w.tables.propertyCommands.queue productId deviceId).length w.publishes
          (later w.sqlFaults)) ∧
    (actions.run sem w).1.isSome = true ∧
    (NoOrphan .action w (actions.trace sem w) (actions.final sem w) ↔
      ClaimedFailuresRecorded config.attempts (w.actionQueue productId deviceId).length w.publishes
        w.sqlFaults) := by
  have hproperties := (Prog.wp_iff _ _ _).mp (wp_sendProperty config productId deviceId w)
  have hactions := (Prog.wp_iff _ _ _).mp (wp_sendActions config productId deviceId
    ((w.actionQueue productId deviceId).length + 1 + spare) w [] (by omega))
  rw [List.append_nil] at hproperties hactions
  refine ⟨hproperties.noOrphan_iff fun id hid => status_of_mem_queue hid, hactions.1, ?_⟩
  exact hactions.2.noOrphan_iff fun id hid => status_of_mem_queue hid

instance (queue : Queue) (id : Int) (events : List (Event Op.Ans)) :
    Decidable (Accepted queue id events) :=
  inferInstanceAs (Decidable (∃ event ∈ events, _))

section Example

-- One command of each kind is waiting.
def oneOfEach : Tables where
  propertyCommands := CommandTable.empty.insert "p" "d" ⟨.bool true, .oneShot⟩ 0
  actionInvocations := CommandTable.empty.insert "p" "d" ⟨"reboot", .null⟩ 0
  propertyDesired := fun _ => none
  propertyLatest := fun _ => none

-- The broker refuses every message, and the statement after the claim fails.
def brokerDown : World :=
  { World.started oneOfEach with
    publishes := fun _ => .response 503 ()
    sqlFaults := fun n => if n = 1 then some "connection reset" else none }

theorem drains_leave_orphans :
    ¬NoOrphan .property brokerDown ((sendPropertyCommandToDevice testConfig "p" "d").trace sem
      brokerDown)
        ((sendPropertyCommandToDevice testConfig "p" "d").final sem brokerDown) ∧
      ¬NoOrphan .action brokerDown ((sendActionInvocationsToDevice testConfig "p" "d" 2).trace sem
        brokerDown)
        ((sendActionInvocationsToDevice testConfig "p" "d" 2).final sem brokerDown) := by
  constructor
  · intro h
    exact absurd (h 1 (by decide +kernel) (by decide +kernel)) (by decide +kernel)
  · intro h
    exact absurd (h 1 (by decide +kernel) (by decide +kernel)) (by decide +kernel)

end Example

end RmqttThings.Commands
