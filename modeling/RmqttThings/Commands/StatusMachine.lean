import RmqttThings.Commands.Runs

namespace RmqttThings.Commands

open Effects

namespace CommandStatus

inductive Step : CommandStatus → CommandStatus → Prop where
  | claim : Step .pending .sent
  | delete : Step .pending .deleted
  | succeed : Step .sent .success
  | fail : Step .sent .failed

def terminal : CommandStatus → Bool
  | pending => false
  | sent => false
  | success => true
  | failed => true
  | deleted => true

-- How far a row has come.
def rank : CommandStatus → Nat
  | pending => 1
  | sent => 2
  | success => 3
  | failed => 3
  | deleted => 3

theorem Step.rank_lt {status next : CommandStatus} (h : Step status next) :
    status.rank < next.rank := by
  cases h <;> decide

theorem Step.not_terminal {status next : CommandStatus} (h : Step status next) :
    status.terminal = false := by
  cases h <;> rfl

end CommandStatus

section Transition

variable {β : Type}

-- What one statement can do to the row of an id: nothing, create it, or take it one
-- step further.
inductive Transition (before : Option (CommandRow β)) : Option (CommandRow β) → Prop where
  | same : Transition before before
  | create (row : CommandRow β) :
      before = none → row.status = .pending → Transition before (some row)
  | move (row : CommandRow β) (status : CommandStatus) (now : OffsetDateTime) :
      before = some row → row.status.Step status → Transition before (some (row.moved status now))

theorem transition_update (table : CommandTable β) (cond : CommandRow β → Bool)
    {status prev : CommandStatus} (hstep : prev.Step status) (now : OffsetDateTime) (id : Int) :
    Transition (table.find id) ((table.update cond status prev now).find id) := by
  rw [CommandTable.find_update]
  cases hrow : table.find id with
  | none => exact .same
  | some row =>
      simp only [Option.map_some]
      by_cases hcond : (cond row && row.status == prev) = true
      · rw [if_pos hcond]
        simp only [Bool.and_eq_true, beq_iff_eq] at hcond
        exact .move row status now rfl (hcond.2 ▸ hstep)
      · rw [if_neg hcond]
        exact .same

theorem transition_insert (table : CommandTable β) (productId deviceId : String) (body : β)
    (now : OffsetDateTime)
    (id : Int) : Transition (table.find id) ((table.insert productId deviceId body now).find
      id) := by
  rw [CommandTable.find_insert]
  split_ifs with h
  · exact .create _ (h ▸ table.find_nextId) rfl
  · exact .same

theorem settled_step {status prev : CommandStatus} (hprev : prev = .sent)
    (h : status = .success ∨ status = .failed) :
    prev.Step status := by
  subst hprev
  rcases h with rfl | rfl
  · exact .succeed
  · exact .fail

-- The two tables are written by six statements, and read by everything else.
theorem transition_exec {stmt : Sql} (h : stmt.Disciplined) (now : OffsetDateTime) (t : Tables)
    (queue : Queue) (id : Int) : Transition ((t.commands queue).find id)
    (((stmt.exec now t).2.commands queue).find id) := by
  cases queue with
  | property =>
      cases stmt with
      | insertPropertyCommand => exact transition_insert _ _ _ _ now id
      | updatePropertyCommandStatus => exact transition_update _ _ (settled_step h.1 h.2) now id
      | updateSentCommandsToFailed => exact transition_update _ _ .fail now id
      | updatePendingCommandsToSent => exact transition_update _ _ .claim now id
      | deletePropertyCommands => exact transition_update _ _ .delete now id
      | claimNextPendingAction =>
          simp only [Sql.exec]
          split <;> exact .same
      | _ => exact .same
  | action =>
      cases stmt with
      | insertActionInvocation => exact transition_insert _ _ _ _ now id
      | updateActionInvocationStatus => exact transition_update _ _ (settled_step h.1 h.2) now id
      | claimNextPendingAction =>
          simp only [Sql.exec]
          split
          · exact .same
          · exact transition_update _ _ .claim now id
      | deleteActionInvocations => exact transition_update _ _ .delete now id
      | _ => exact .same

theorem transition_sem {config : MqttConfig} {past : List (Event Op.Ans)} {op : Op}
    (h : CommandRule config past op) (w : World) (queue : Queue) (id : Int) :
    Transition (w.row queue id) ((sem op w).2.row queue id) := by
  cases op with
  | sql stmt =>
      simp only [World.row, sem_sql_tables]
      split_ifs
      · exact .same
      · exact transition_exec h _ _ queue id
  | postPublish request => exact .same
  | getSubscriptions clientId => exact .same

def rowRank (row : Option (CommandRow β)) : Nat := row.elim 0 fun row => row.status.rank

theorem Transition.rank_le {before after : Option (CommandRow β)} (h : Transition before after) :
    rowRank before ≤ rowRank after := by
  cases h with
  | same => exact le_rfl
  | create row hnone hpending => simp [rowRank, hnone]
  | move row status now hrow hstep =>
      simp only [rowRank, hrow, Option.elim_some, CommandRow.moved_status]
      exact hstep.rank_lt.le

-- A status that has been left is never taken again.
theorem Transition.rank_lt {before after : Option (CommandRow β)} (h : Transition before after)
    (hne : before.map (·.status) ≠ after.map (·.status)) : rowRank before < rowRank after := by
  cases h with
  | same => exact absurd rfl hne
  | create row hnone hpending =>
      simp only [rowRank, hnone, Option.elim_none, Option.elim_some, hpending]
      decide
  | move row status now hrow hstep =>
      simp only [rowRank, hrow, Option.elim_some, CommandRow.moved_status]
      exact hstep.rank_lt

theorem Transition.eq_of_rank {before after : Option (CommandRow β)} (h : Transition before after)
    (hle : rowRank after ≤ rowRank before) : after = before := by
  cases h with
  | same => rfl
  | create row hnone hpending => simp [rowRank, hnone, hpending, CommandStatus.rank] at hle
  | move row status now hrow hstep =>
      simp only [rowRank, hrow, Option.elim_some, CommandRow.moved_status] at hle
      exact absurd hstep.rank_lt (not_lt.mpr hle)

theorem Transition.terminal {before after : Option (CommandRow β)} (h : Transition before after)
    {row : CommandRow β}
    (hrow : before = some row) (hterminal : row.status.terminal = true) : after = some row := by
  cases h with
  | same => exact hrow
  | create other hnone hpending => simp [hrow] at hnone
  | move other status now hother hstep =>
      rw [hrow, Option.some.injEq] at hother
      rw [hother, hstep.not_terminal] at hterminal
      cases hterminal

end Transition

section Claims

variable {event : Event Op.Ans} {w : World}

-- A claim that succeeds and what it hands out: all Pending rows of the device, or the
-- first of them.
inductive Claim (w : World) : Event Op.Ans → Prop where
  | properties (productId deviceId : String) :
      (sem (.sql (.updatePendingCommandsToSent productId deviceId)) w).2.tables =
        ((Sql.updatePendingCommandsToSent productId deviceId).exec w.tick.clock w.tables).2 →
      Claim w ⟨.sql (.updatePendingCommandsToSent productId deviceId),
        .ok ((w.tables.propertyCommands.queue productId deviceId).map (claimed w.tick.clock))⟩
  | action (productId deviceId : String) (row : CommandRow ActionInvocation)
      (rest : List (CommandRow ActionInvocation)) :
      w.tables.actionInvocations.queue productId deviceId = row :: rest →
      (sem (.sql (.claimNextPendingAction productId deviceId)) w).2.tables = { w.tables with
        actionInvocations :=
          w.tables.actionInvocations.update (·.id == row.id) .sent .pending w.tick.clock } →
      Claim w ⟨.sql (.claimNextPendingAction productId deviceId),
        .ok (some (claimed w.tick.clock row))⟩

theorem claim_of_handedOut (hanswer : event.2 = (sem event.1 w).1) (h : handedOut event ≠ []) :
    Claim w event := by
  unfold handedOut at h
  split at h
  · rename_i productId deviceId rows
    obtain ⟨rfl, htables⟩ := sem_sql_ok hanswer.symm
    exact .properties productId deviceId htables
  · rename_i productId deviceId row
    obtain ⟨hrow, htables⟩ := sem_sql_ok hanswer.symm
    simp only [Sql.exec] at hrow htables
    cases hqueue : w.tables.actionInvocations.queue productId deviceId with
    | nil => simp [hqueue] at hrow
    | cons first rest =>
        simp only [hqueue, Option.some.injEq] at hrow htables
        subst hrow
        exact .action productId deviceId first rest hqueue htables
  · exact absurd rfl h

theorem handedOut_nodup (hanswer : event.2 = (sem event.1 w).1) : (handedOut event).Nodup := by
  by_cases h : handedOut event = []
  · simp [h]
  · cases claim_of_handedOut hanswer h with
    | properties productId deviceId htables =>
        have hnodup := w.tables.propertyCommands.queue_nodup productId deviceId
        have hmap : (handedOut ⟨.sql (.updatePendingCommandsToSent productId deviceId),
            .ok ((w.tables.propertyCommands.queue productId deviceId).map
              (claimed w.tick.clock))⟩) =
            ((w.tables.propertyCommands.queue productId deviceId).map (·.id)).map
              (Prod.mk Queue.property) := by
          simp [handedOut, claimed, Function.comp_def]
        rw [hmap]
        exact hnodup.map (Prod.mk_right_injective _)
    | action productId deviceId row rest hqueue htables => simp [handedOut]

-- The rows that are handed out were Pending, and are Sent now.
theorem flips_of_handedOut {queue : Queue} {id : Int} (hanswer : event.2 = (sem event.1 w).1)
    (h : (queue, id) ∈ handedOut event) :
    ∃ row, w.row queue id = some row ∧ row.status = .pending ∧
      (sem event.1 w).2.row queue id = some (claimed w.tick.clock row) := by
  cases claim_of_handedOut hanswer (List.ne_nil_of_mem h) with
  | properties productId deviceId htables =>
      simp only [handedOut, List.mem_map, Prod.mk.injEq] at h
      obtain ⟨_, ⟨row, hrow, rfl⟩, rfl, rfl⟩ := h
      obtain ⟨hmem, hproduct, hdevice, hpending⟩ := (CommandTable.mem_queue _ _ _ _).mp hrow
      have hfind : w.tables.propertyCommands.find row.id = some row :=
        (CommandTable.find_eq_some_iff _ _ _).mpr ⟨hmem, rfl⟩
      refine ⟨row, hfind, hpending, ?_⟩
      simp only [World.row, htables, Tables.commands, Sql.exec, claimed, CommandRow.moved_id]
      rw [CommandTable.find_update, hfind]
      simp [CommandTable.ofDevice, hproduct, hdevice, hpending]
  | action productId deviceId row rest hqueue htables =>
      simp only [handedOut, List.mem_singleton, Prod.mk.injEq] at h
      obtain ⟨rfl, rfl⟩ := h
      have hrow : row ∈ w.tables.actionInvocations.queue productId deviceId := by simp [hqueue]
      obtain ⟨hmem, hproduct, hdevice, hpending⟩ := (CommandTable.mem_queue _ _ _ _).mp hrow
      have hfind : w.tables.actionInvocations.find row.id = some row :=
        (CommandTable.find_eq_some_iff _ _ _).mpr ⟨hmem, rfl⟩
      refine ⟨row, hfind, hpending, ?_⟩
      simp only [World.row, htables, Tables.commands, claimed, CommandRow.moved_id]
      rw [CommandTable.find_update, hfind]
      simp [hpending]

end Claims

section Run

variable (config : MqttConfig) (fuel : Nat) (moves : List (Move Request)) (start : World)
  (queue : Queue) (id : Int)

-- The row after the entries of a log.
abbrev rowAfter (log : List (Nat × Event Op.Ans)) : Option (CommandRow queue.Body) :=
  (Pool.replay sem start log).row queue id

-- The entry takes the row away from a status.
def Leaves (status : CommandStatus) (entry : Nat × Event Op.Ans)
    (earlier : List (Nat × Event Op.Ans)) : Prop :=
  (rowAfter start queue id earlier).map (·.status) = some status ∧
    (rowAfter start queue id (entry :: earlier)).map (·.status) ≠ some status

variable {config fuel moves}

theorem transition_log {later earlier : List (Nat × Event Op.Ans)} {entry : Nat × Event Op.Ans}
    (h : (commandRun config fuel moves start).log = later ++ entry :: earlier) :
    Transition (rowAfter start queue id earlier) (rowAfter start queue id (entry :: earlier)) := by
  obtain ⟨served, -, hrule⟩ :=
    Pool.allowed_of_log sem (serve config fuel) (spec_serve config fuel) moves start
    later earlier entry.1 entry.2 h
  exact transition_sem hrule _ queue id

-- What every transition keeps holds from some point of the run on.
theorem along_log (inv : Option (CommandRow queue.Body) → Prop)
    (hkeep : ∀ before after, Transition before after → inv before → inv after)
    (later middle : List (Nat × Event Op.Ans)) {earlier : List (Nat × Event Op.Ans)}
    (h : (commandRun config fuel moves start).log = later ++ (middle ++ earlier))
    (hinv : inv (rowAfter start queue id earlier)) :
    inv (rowAfter start queue id (middle ++ earlier)) := by
  induction middle generalizing later with
  | nil => exact hinv
  | cons entry middle ih =>
      have hbelow := ih (later ++ [entry]) (by simpa using h)
      exact hkeep _ _ (transition_log start queue id h) hbelow

theorem terminal_along_log (later middle : List (Nat × Event Op.Ans))
    {earlier : List (Nat × Event Op.Ans)}
    {row : CommandRow queue.Body} (h : (commandRun config fuel moves start).log =
      later ++ (middle ++ earlier))
    (hrow : rowAfter start queue id earlier = some row) (hterminal : row.status.terminal = true) :
    rowAfter start queue id (middle ++ earlier) = some row := by
  apply along_log start queue id (fun found => found = some row) _ later middle h hrow
  exact fun before after htransition hbefore => htransition.terminal hbefore hterminal

theorem not_leaves_again {status : CommandStatus}
    {later earlier earlier' : List (Nat × Event Op.Ans)} {entry entry' : Nat × Event Op.Ans}
    (h : (commandRun config fuel moves start).log = later ++ entry :: earlier)
    (hsuffix : (entry' :: earlier') <:+ earlier)
    (hleaves : Leaves start queue id status entry earlier)
    (hleaves' : Leaves start queue id status entry' earlier') : False := by
  obtain ⟨middle, rfl⟩ := hsuffix
  have hfirst : (commandRun config fuel moves start).log = (later ++ entry :: middle) ++ entry' ::
      earlier' := by
    simp [h]
  have hne : (rowAfter start queue id earlier').map (·.status) ≠
      (rowAfter start queue id (entry' :: earlier')).map (·.status) := by
    rw [hleaves'.1]
    exact Ne.symm hleaves'.2
  have hlt := (transition_log start queue id hfirst).rank_lt hne
  have hle := along_log start queue id
    (fun row => rowRank (rowAfter start queue id (entry' :: earlier')) ≤ rowRank row)
    (fun _ _ htransition hle => hle.trans htransition.rank_le) (later ++ [entry]) middle
      (by simpa using h) le_rfl
  have hsame : ∀ row row' : Option (CommandRow queue.Body), row.map (·.status) = some status →
      row'.map (·.status) = some status → rowRank row = rowRank row' := by
    intro row row' hrow hrow'
    cases row <;> cases row' <;> simp_all [rowRank]
  have heq := hsame _ _ hleaves.1 hleaves'.1
  omega

theorem leaves_once {status : CommandStatus}
    {later later' earlier earlier' : List (Nat × Event Op.Ans)} {entry entry' : Nat × Event Op.Ans}
    (h : (commandRun config fuel moves start).log = later ++ entry :: earlier)
    (h' : (commandRun config fuel moves start).log = later' ++ entry' :: earlier')
    (hleaves : Leaves start queue id status entry earlier)
    (hleaves' : Leaves start queue id status entry' earlier') :
    later = later' ∧ entry = entry' ∧ earlier = earlier' := by
  rcases Pool.same_or_suffix_of_append_eq (h.symm.trans h') with hsame | hsuffix | hsuffix
  · exact hsame
  · exact (not_leaves_again start queue id h' hsuffix hleaves' hleaves).elim
  · exact (not_leaves_again start queue id h hsuffix hleaves hleaves').elim

-- A claim in the log takes the row from Pending to Sent.
theorem claim_leaves {later earlier : List (Nat × Event Op.Ans)} {thread : Nat}
    {claim : Event Op.Ans}
    (h : (commandRun config fuel moves start).log = later ++ (thread, claim) :: earlier)
    (hmem : (queue, id) ∈ handedOut claim) :
    Leaves start queue id .pending (thread, claim) earlier ∧
      (rowAfter start queue id ((thread, claim) :: earlier)).map (·.status) = some .sent := by
  have hanswer := Pool.answered_play sem (serve config fuel) moves start later (thread,
      claim) earlier h
  obtain ⟨row, hrow, hpending, hafter⟩ := flips_of_handedOut hanswer hmem
  have hsent : (rowAfter start queue id ((thread, claim) :: earlier)).map (·.status) =
      some .sent := by
    rw [rowAfter, Pool.replay, hafter]
    rfl
  exact ⟨⟨by simp [rowAfter, hrow, hpending], by simp [hsent]⟩, hsent⟩

-- Where the claim behind an attempt to publish stands in the log.
theorem claim_of_published {later earlier : List (Nat × Event Op.Ans)} {thread : Nat}
    {event : Event Op.Ans}
    (h : (commandRun config fuel moves start).log = later ++ (thread, event) :: earlier)
    (hpublished : published event = some (correlationId (queue, id))) :
    ∃ tries middle claim done rest between before, earlier = between ++ (thread, claim) :: before ∧
      Pool.history thread between = tries ++ middle ∧ handedOut claim = done ++ (queue, id) ::
        rest ∧
      (∀ event ∈ tries, published event = some (correlationId (queue, id)) ∧
        accepted event = false) ∧
      tries.length ≤ config.propertyCommand.publish.retries.toNat ∧ Within done middle := by
  obtain ⟨served, -, hrule⟩ :=
    Pool.allowed_of_log sem (serve config fuel) (spec_serve config fuel) moves start
    later earlier thread event h
  obtain ⟨op, reply⟩ := event
  cases op with
  | sql stmt => simp [published] at hpublished
  | getSubscriptions clientId => simp [published] at hpublished
  | postPublish request =>
      simp only [published, Option.some.injEq] at hpublished
      obtain ⟨tries, middle, claim, older, done, key, rest, hpast, hclaim, hkey, htries, hlength,
          hmiddle⟩ := hrule
      obtain rfl : (queue, id) = key := correlationId_inj (hpublished.symm.trans hkey)
      obtain ⟨between, before, rfl, hbetween, -⟩ := Pool.history_eq_append (tries ++ middle) hpast
      rw [hpublished] at htries
      exact ⟨tries, middle, claim, done, rest, between, before, rfl, hbetween, hclaim, htries,
        hlength, hmiddle⟩

-- Every attempt belongs to the one claim of the row, and stands after it.
theorem attempt_after_claim {later before later' earlier' : List (Nat × Event Op.Ans)}
    {thread other : Nat} {claim event : Event Op.Ans}
    (h : (commandRun config fuel moves start).log = later ++ (thread, claim) :: before)
    (hmem : (queue, id) ∈ handedOut claim)
    (h' : (commandRun config fuel moves start).log = later' ++ (other, event) :: earlier')
    (hpublished : published event = some (correlationId (queue, id))) :
    other = thread ∧ ∃ between, later = later' ++ (other, event) :: between := by
  obtain ⟨tries, middle, claim', done, rest, between, before', rfl, -, hclaim, -⟩ :=
    claim_of_published start queue id h' hpublished
  have hplace : (commandRun config fuel moves start).log =
      (later' ++ (other, event) :: between) ++ (other, claim') :: before' := by simp [h']
  obtain ⟨hlater, hentry, -⟩ :=
    leaves_once start queue id h hplace (claim_leaves start queue id h hmem).1
    (claim_leaves start queue id hplace (by simp [hclaim])).1
  exact ⟨congrArg Prod.fst hentry.symm, between, hlater⟩

-- The attempts to publish a row, newest first.
def attempts (log : List (Nat × Event Op.Ans)) : List (Nat × Event Op.Ans) :=
  log.filter fun entry => published entry.2 == some (correlationId (queue, id))

theorem mem_attempts {log : List (Nat × Event Op.Ans)} {entry : Nat × Event Op.Ans} :
    entry ∈ attempts queue id log ↔ entry ∈ log ∧
      published entry.2 = some (correlationId (queue, id)) := by
  simp [attempts]

theorem attempts_append (first second : List (Nat × Event Op.Ans)) :
    attempts queue id (first ++ second) = attempts queue id first ++ attempts queue id second :=
  List.filter_append ..

theorem attempts_cons_claim {thread : Nat} {claim : Event Op.Ans} (h : handedOut claim ≠ [])
    (log : List (Nat × Event Op.Ans)) :
    attempts queue id ((thread, claim) :: log) = attempts queue id log := by
  have hnone : published claim ≠ some (correlationId (queue, id)) :=
    fun hp => h (handedOut_of_published hp)
  simp [attempts, hnone]

theorem no_attempt_before_claim {later before : List (Nat × Event Op.Ans)} {thread : Nat}
    {claim : Event Op.Ans}
    (h : (commandRun config fuel moves start).log = later ++ (thread, claim) :: before)
    (hmem : (queue, id) ∈ handedOut claim) : attempts queue id before = [] := by
  rw [List.eq_nil_iff_forall_not_mem]
  rintro ⟨other, event⟩ hattempt
  obtain ⟨hin, hpublished⟩ := (mem_attempts queue id).mp hattempt
  obtain ⟨first, second, rfl⟩ := List.append_of_mem hin
  have hplace : (commandRun config fuel moves start).log =
      (later ++ (thread, claim) :: first) ++ (other, event) :: second := by simp [h]
  obtain ⟨-, between, hbetween⟩ := attempt_after_claim start queue id h hmem hplace hpublished
  have hlength := congrArg List.length hbetween
  simp only [List.length_append, List.length_cons] at hlength
  omega

-- Before the newest attempt there were only refused ones, all of the same message.
theorem earlier_attempts {later earlier : List (Nat × Event Op.Ans)} {thread : Nat}
    {event : Event Op.Ans}
    (h : (commandRun config fuel moves start).log = later ++ (thread, event) :: earlier)
    (hpublished : published event = some (correlationId (queue, id))) :
    (attempts queue id earlier).length ≤ config.propertyCommand.publish.retries.toNat ∧
      ∀ entry ∈ attempts queue id earlier, accepted entry.2 = false := by
  obtain ⟨tries, middle, claim, done, rest, between, before, rfl, hbetween, hclaim, htries, hlength,
      hmiddle⟩ :=
    claim_of_published start queue id h hpublished
  have hplace : (commandRun config fuel moves start).log =
      (later ++ (thread, event) :: between) ++ (thread, claim) :: before := by simp [h]
  have hmem : (queue, id) ∈ handedOut claim := by simp [hclaim]
  have hnodup := handedOut_nodup
    (Pool.answered_play sem (serve config fuel) moves start _ (thread, claim) before hplace)
  rw [hclaim, List.nodup_append] at hnodup
  have hall : attempts queue id (between ++ (thread, claim) :: before) =
      attempts queue id between := by
    rw [attempts_append, attempts_cons_claim queue id (List.ne_nil_of_mem hmem),
      no_attempt_before_claim start queue id hplace hmem, List.append_nil]
  have hown : ∀ entry ∈ between, (published entry.2 == some (correlationId (queue, id))) = true →
      entry.1 = thread := by
    intro entry hentry hattempt
    obtain ⟨first, second, rfl⟩ := List.append_of_mem hentry
    have hentry : (commandRun config fuel moves start).log =
        (later ++ (thread, event) :: first) ++ (entry.1, entry.2) ::
          (second ++ (thread, claim) :: before) := by
      simp [h]
    exact (attempt_after_claim start queue id hplace hmem hentry (by simpa using hattempt)).1
  have hmiddle_none :
      middle.filter (fun event => published event == some (correlationId (queue, id))) = [] := by
    rw [List.filter_eq_nil_iff]
    intro other hother hattempt
    obtain ⟨key, hdone, hkey⟩ :=
      List.mem_map.mp ((hmiddle other hother).2 _ (by simpa using hattempt))
    exact hnodup.2.2 key hdone (queue, id) (by simp) (correlationId_inj hkey)
  have htries_all : tries.filter (fun event => published event == some
      (correlationId (queue, id))) = tries := by
    rw [List.filter_eq_self]
    intro other hother
    simp [(htries other hother).1]
  have hsame := Pool.map_filter_log thread (fun event => published event == some
      (correlationId (queue, id)))
    between hown
  rw [hbetween, List.filter_append, htries_all, hmiddle_none, List.append_nil] at hsame
  rw [hall]
  constructor
  · have hcount := congrArg List.length hsame
    rw [List.length_map] at hcount
    exact hcount.trans_le hlength
  · intro entry hentry
    have hin : entry.2 ∈ tries := hsame ▸ List.mem_map_of_mem hentry
    exact (htries entry.2 hin).2

-- One call of `publish_command`: the attempts of the thread that has claimed the row,
-- after its claim, and none after the one that the broker has accepted.
theorem handed_over_once (hattempts : attempts queue id (commandRun config fuel moves start).log ≠
    []) :
    ∃ later thread claim before,
      (commandRun config fuel moves start).log = later ++ (thread, claim) :: before ∧
      (rowAfter start queue id before).map (·.status) = some .pending ∧
      (rowAfter start queue id ((thread, claim) :: before)).map (·.status) = some .sent ∧
      (∀ entry ∈ attempts queue id (commandRun config fuel moves start).log, entry.1 = thread ∧
        entry ∈ later) ∧
      (attempts queue id (commandRun config fuel moves start).log).length ≤
        config.propertyCommand.publish.retries.toNat + 1 ∧
      ∀ entry ∈ (attempts queue id (commandRun config fuel moves start).log).tail,
        accepted entry.2 = false := by
  obtain ⟨newest, older, hnewest⟩ := List.exists_cons_of_ne_nil hattempts
  obtain ⟨later, earlier, hlog, -, hpublished, holder⟩ := List.filter_eq_cons_iff.mp hnewest
  simp only [beq_iff_eq] at hpublished
  have hbound := earlier_attempts start queue id hlog hpublished
  obtain ⟨tries, middle, claim, done, rest, between, before, rfl, -, hclaim, -⟩ :=
    claim_of_published start queue id hlog hpublished
  have hplace : (commandRun config fuel moves start).log =
      (later ++ (newest.1, newest.2) :: between) ++ (newest.1, claim) :: before := by simp [hlog]
  have hmem : (queue, id) ∈ handedOut claim := by simp [hclaim]
  have hleaves := claim_leaves start queue id hplace hmem
  rw [attempts, holder] at hbound
  refine ⟨_, newest.1, claim, before, hplace, hleaves.1.1, hleaves.2, ?_, ?_, ?_⟩
  · rintro ⟨other, event⟩ hentry
    obtain ⟨hin, hpublished⟩ := (mem_attempts queue id).mp hentry
    obtain ⟨first, second, hsplit⟩ := List.append_of_mem hin
    obtain ⟨hsame, between, hlater⟩ :=
      attempt_after_claim start queue id hplace hmem hsplit hpublished
    exact ⟨hsame, by simp [hlater]⟩
  · rw [hnewest, List.length_cons]
    omega
  · rw [hnewest, List.tail_cons]
    exact hbound.2

end Run

-- Every row of either queue, in every run.
theorem command_status_machine (config : MqttConfig) (fuel : Nat) (moves : List (Move Request))
    (start : World) (queue : Queue) (id : Int) :
    let log := (commandRun config fuel moves start).log
    let row := rowAfter start queue id
    -- each status change is a step of the machine
    (∀ later entry earlier, log = later ++ entry :: earlier →
      Transition (row earlier) (row (entry :: earlier))) ∧
    -- a row that is Success, Failed or Deleted never changes again
    (∀ later earlier settled, log = later ++ earlier → row earlier = some settled →
      settled.status.terminal = true → (commandRun config fuel moves start).state.row queue id =
        some settled) ∧
    -- a row leaves Pending once, so one drain claims it, and leaves Sent once, so
    -- neither a reply nor a recorded failure overwrites the other
    (∀ status later entry earlier later' entry' earlier', log = later ++ entry :: earlier →
      log = later' ++ entry' :: earlier' → Leaves start queue id status entry earlier →
      Leaves start queue id status entry' earlier' → later = later' ∧ entry = entry' ∧
        earlier = earlier') ∧
    -- its attempts are those of one publication by the drain that has claimed it
    (attempts queue id log ≠ [] → ∃ later thread claim before,
      log = later ++ (thread, claim) :: before ∧
      (row before).map (·.status) = some .pending ∧ (row ((thread, claim) :: before)).map
        (·.status) = some .sent ∧
      (∀ entry ∈ attempts queue id log, entry.1 = thread ∧ entry ∈ later) ∧
      (attempts queue id log).length ≤ config.propertyCommand.publish.retries.toNat + 1 ∧
      ∀ entry ∈ (attempts queue id log).tail, accepted entry.2 = false) := by
  refine ⟨?_, ?_, ?_, ?_⟩
  · intro later entry earlier h
    exact transition_log start queue id h
  · intro later earlier settled h hrow hterminal
    rw [Pool.state_eq_replay, h]
    exact terminal_along_log start queue id [] later h hrow hterminal
  · intro status later entry earlier later' entry' earlier' h h' hleaves hleaves'
    exact leaves_once start queue id h h' hleaves hleaves'
  · exact handed_over_once start queue id

end RmqttThings.Commands
