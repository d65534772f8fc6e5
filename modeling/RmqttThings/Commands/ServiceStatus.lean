import RmqttThings.Commands.MergeOrder

namespace RmqttThings.Commands

open Effects

section Code

variable {config : MqttConfig} {req : CreateActionCommandRequest} {past : List (Event Op.Ans)}

-- A claim after which a drain returns.
def endsDrain : Event Op.Ans → Bool
  | ⟨.sql (.claimNextPendingAction _ _), .ok none⟩ => true
  | ⟨.sql (.claimNextPendingAction _ _), .error _⟩ => true
  | _ => false

def Unended (past : List (Event Op.Ans)) : Prop := ∀ event ∈ past.head?, endsDrain event = false

-- The publication of the row is over: it was accepted, or there are no attempts left.
def Finished (config : MqttConfig) (id : Int) (past : List (Event Op.Ans)) : Prop :=
  Accepted .action id past ∨
    config.attempts ≤ past.countP (published · == some (correlationId (.action, id)))

def AllFinished (config : MqttConfig) (past : List (Event Op.Ans)) : Prop :=
  ∀ id, (∃ event ∈ past, (Queue.action, id) ∈ handedOut event) → Finished config id past

-- The row of the request: storing it is the first thing that it does.
def Stored (req : CreateActionCommandRequest) (id : Int) (past : List (Event Op.Ans)) : Prop :=
  ∃ serviceType params, past.getLast? =
    some ⟨.sql (.insertActionInvocation req.productId req.deviceId serviceType params), .ok id⟩

-- A creation claims for its own device, when what it has claimed before is done with,
-- and it does nothing after the claim that has ended its drain.
def CreateRule (config : MqttConfig) (req : CreateActionCommandRequest)
    (past : List (Event Op.Ans)) : Op → Prop
  | .sql (.claimNextPendingAction productId deviceId) =>
      productId = req.productId ∧ deviceId = req.deviceId ∧ Unended past ∧ AllFinished config past
  | _ => Unended past

-- What the answer of a creation goes by: the last claim of its drain, whatever became of the row.
inductive Outcome (req : CreateActionCommandRequest) (past : List (Event Op.Ans)) :
    Option Reply → Prop where
  | error (error : Api.ApiError) : Unended past → Outcome req past (some (.error error))
  | busy : Unended past → Outcome req past none
  | queued (id : Int) :
      Stored req id past → Unended past → (∀ event ∈ past, published event = none) →
      Outcome req past (some (.invocation id .pending))
  | drained (id : Int) (rest : List (Event Op.Ans)) : Stored req id past →
      past = ⟨.sql (.claimNextPendingAction req.productId req.deviceId), .ok none⟩ :: rest →
      Outcome req past (some (.invocation id .sent))
  | failed (id : Int) (error : String) (rest : List (Event Op.Ans)) : Stored req id past →
      past = ⟨.sql (.claimNextPendingAction req.productId req.deviceId), .error error⟩ :: rest →
      Outcome req past (some (.invocation id .pending))

theorem unended_cons {event : Event Op.Ans} (h : endsDrain event = false)
    (past : List (Event Op.Ans)) :
    Unended (event :: past) := by
  intro other hother
  rw [List.head?_cons, Option.mem_some_iff] at hother
  rw [← hother]
  exact h

theorem endsDrain_of_published {event : Event Op.Ans} {correlation : String}
    (h : published event = some correlation) :
    endsDrain event = false := by
  unfold published at h
  split at h
  · rfl
  · cases h

theorem unended_append {events : List (Event Op.Ans)} (h : Unended past)
    (hevents : ∀ event ∈ events, ∃ correlation, published event = some correlation) :
    Unended (events ++ past) := by
  cases events with
  | nil => exact h
  | cons event events =>
      obtain ⟨correlation, hpublished⟩ := hevents event (by simp)
      exact unended_cons (endsDrain_of_published hpublished) _

theorem Finished.append {id : Int} (h : Finished config id past) (events : List (Event Op.Ans)) :
    Finished config id (events ++ past) := by
  rcases h with haccepted | hcount
  · exact .inl (accepted_append.mpr (.inr haccepted))
  · right
    rw [List.countP_append]
    omega

theorem Stored.append {id : Int} (h : Stored req id past) (events : List (Event Op.Ans)) :
    Stored req id (events ++ past) := by
  obtain ⟨serviceType, params, hlast⟩ := h
  refine ⟨serviceType, params, ?_⟩
  rw [List.getLast?_append, hlast]
  rfl

-- The attempts of one publication.
theorem create_publishAttempts (request : PublishRequest) (attempts : Nat) (h : Unended past) :
    Prog.Spec (CreateRule config req)
      (fun ok past' => ∃ events, past' = events ++ past ∧
        (∀ event ∈ events, published event = some request.payload.id) ∧
        if ok then ∃ event ∈ events, accepted event = true else events.length = attempts)
      (publishAttempts request attempts) past := by
  induction attempts generalizing past with
  | zero => exact ⟨[], rfl, by simp, rfl⟩
  | succ attempts ih =>
      rw [publishAttempts_succ]
      refine ⟨h, ?_⟩
      intro reply
      dsimp only
      by_cases hreply : reply.isSuccess = true
      · rw [if_pos hreply]
        exact ⟨[⟨.postPublish request, reply⟩],
          rfl, by simp [published], by simp [accepted, hreply]⟩
      · rw [if_neg hreply]
        have hnext : Unended (⟨.postPublish request, reply⟩ :: past) := unended_cons rfl past
        apply (ih hnext).mono
        rintro ok past' ⟨events, rfl, hpublished, hok⟩
        refine ⟨events ++ [⟨.postPublish request, reply⟩], by simp, ?_, ?_⟩
        · intro event hevent
          rcases List.mem_append.mp hevent with hold | hnew
          · exact hpublished event hold
          · rw [List.mem_singleton.mp hnew]
            rfl
        · cases ok with
          | true =>
              obtain ⟨event, hevent, haccepted⟩ := hok
              exact ⟨event, List.mem_append_left _ hevent, haccepted⟩
          | false =>
              simp only [Bool.false_eq_true, if_false] at hok
              simp [hok]

theorem create_publishCommand (request : PublishRequest) (h : Unended past) :
    Prog.Spec (CreateRule config req)
      (fun _ past' => ∃ events, past' = events ++ past ∧
        (∀ event ∈ events, published event = some request.payload.id) ∧
        ((∃ event ∈ events, accepted event = true) ∨ events.length = config.attempts))
      (publishCommand config request) past := by
  unfold publishCommand
  apply Prog.Spec.seq (create_publishAttempts request config.attempts h)
  rintro ok past' ⟨events, rfl, hpublished, hok⟩
  cases ok with
  | true => exact ⟨events, rfl, hpublished, .inl hok⟩
  | false => exact ⟨events, rfl, hpublished, .inr hok⟩

theorem AllFinished.cons (h : AllFinished config past) {event : Event Op.Ans}
    (hevent : handedOut event = []) :
    AllFinished config (event :: past) := by
  rintro id ⟨other, hother, hmem⟩
  rcases List.mem_cons.mp hother with rfl | hold
  · rw [hevent] at hmem
    cases hmem
  · exact (h id ⟨other, hold, hmem⟩).append [event]

-- The one row of a claim is done with after its publication.
theorem AllFinished.publication (h : AllFinished config past) {claim : Event Op.Ans} {id : Int}
    (hclaim : handedOut claim = [(.action, id)]) {events : List (Event Op.Ans)}
    (hpublished : ∀ event ∈ events, published event = some (correlationId (.action, id)))
    (hdone : (∃ event ∈ events, accepted event = true) ∨ events.length = config.attempts) :
    AllFinished config (events ++ claim :: past) := by
  rintro other ⟨event, hevent, hmem⟩
  rcases List.mem_append.mp hevent with hnew | hold
  · rw [handedOut_of_published (hpublished event hnew)] at hmem
    cases hmem
  · rcases List.mem_cons.mp hold with rfl | hpast
    · simp only [hclaim, List.mem_singleton, Prod.mk.injEq, true_and] at hmem
      subst hmem
      rcases hdone with ⟨event, hevent, haccepted⟩ | hlength
      · exact .inl ⟨event, List.mem_append_left _ hevent, hpublished event hevent, haccepted⟩
      · right
        have hall : events.countP (published · == some (correlationId (.action, other))) =
            events.length := by
          rw [List.countP_eq_length]
          intro event hevent
          simp [hpublished event hevent]
        rw [List.countP_append, hall]
        omega
    · have hfinished := h other ⟨event, hpast, hmem⟩
      exact (hfinished.append [claim]).append events

-- The row that has just been claimed is published, so all claimed rows are done with.
theorem create_publishAction {row : CommandRow ActionInvocation} {claim : Event Op.Ans}
    (hclaim : handedOut claim = [(.action, row.id)]) (hends : endsDrain claim = false)
    (hfinished : AllFinished config past) :
    Prog.Spec (CreateRule config req)
      (fun _ past' => Unended past' ∧ AllFinished config past' ∧ ∃ events, past' = events ++ past)
      (publishAction config req.productId req.deviceId row) (claim :: past) := by
  apply Prog.Spec.seq (create_publishCommand _ (unended_cons hends past))
  rintro result past' ⟨events, rfl, hpublished, hdone⟩
  have hunended : Unended (events ++ claim :: past) :=
    unended_append (unended_cons hends past) fun event hevent => ⟨_, hpublished event hevent⟩
  have hall : AllFinished config (events ++ claim :: past) :=
    hfinished.publication hclaim hpublished hdone
  cases result with
  | ok _ => exact ⟨hunended, hall, events ++ [claim], List.append_cons ..⟩
  | error _ =>
      refine ⟨hunended, ?_⟩
      intro answer
      exact ⟨unended_cons rfl _, hall.cons rfl, _ :: (events ++ [claim]),
        congrArg (List.cons _) (List.append_cons ..)⟩

-- What a drain has returned, by its last claim.
inductive Drained (req : CreateActionCommandRequest) (past : List (Event Op.Ans)) :
    Option (Except String Unit) → Prop where
  | busy : Unended past → Drained req past none
  | empty (rest : List (Event Op.Ans)) :
      past = ⟨.sql (.claimNextPendingAction req.productId req.deviceId), .ok none⟩ :: rest →
        Drained req past (some (.ok ()))
  | failed (error : String) (rest : List (Event Op.Ans)) :
      past = ⟨.sql (.claimNextPendingAction req.productId req.deviceId), .error error⟩ :: rest →
      Drained req past (some (.error error))

theorem create_sendActions (fuel : Nat) (hunended : Unended past)
    (hfinished : AllFinished config past) :
    Prog.Spec (CreateRule config req) (fun result past' => Drained req past' result ∧ ∃ events,
      past' = events ++ past)
      (sendActionInvocationsToDevice config req.productId req.deviceId fuel) past := by
  induction fuel generalizing past with
  | zero => exact ⟨.busy hunended, [], rfl⟩
  | succ fuel ih =>
      refine ⟨⟨rfl, rfl, hunended, hfinished⟩, ?_⟩
      intro claim
      rcases claim with error | found
      · exact ⟨.failed error past rfl, [_], rfl⟩
      · cases found with
        | none => exact ⟨.empty past rfl, [_], rfl⟩
        | some row =>
            apply Prog.Spec.seq (create_publishAction rfl rfl hfinished)
            rintro _ past' ⟨hunended', hfinished', events, rfl⟩
            apply (ih hunended' hfinished').mono
            rintro result past' ⟨hdrained, events', rfl⟩
            exact ⟨hdrained, events' ++ events, by simp⟩

theorem create_isSubscribed (productId deviceId serviceType : String) (hunended : Unended past) :
    Prog.Spec (CreateRule config req) (fun _ past' => ∃ reply, past' = ⟨.getSubscriptions deviceId,
      reply⟩ :: past) (isSubscribedToServiceAction productId deviceId serviceType) past := by
  obtain ⟨answer, heq⟩ := isSubscribedToServiceAction_eq productId deviceId serviceType
  rw [heq]
  exact ⟨hunended, fun reply => ⟨reply, rfl⟩⟩

theorem create_createServiceCommand (config : MqttConfig) (fuel : Nat)
    (req : CreateActionCommandRequest) :
    Prog.Spec (CreateRule config req) (fun reply past => Outcome req past reply)
      (createServiceCommand config fuel req) [] := by
  have hstart : Unended [] := by simp [Unended]
  unfold createServiceCommand
  split
  · exact .error _ hstart
  · split
    · exact .error _ hstart
    · refine ⟨hstart, ?_⟩
      intro answer
      cases answer with
      | error error => exact .error _ (unended_cons rfl [])
      | ok id =>
          apply Prog.Spec.seq (create_isSubscribed req.productId req.deviceId req.serviceType
            (unended_cons rfl []))
          rintro subscribed past ⟨reply, rfl⟩
          have hstored : Stored req id [⟨.getSubscriptions req.deviceId, reply⟩,
              ⟨.sql (.insertActionInvocation req.productId req.deviceId req.serviceType _),
                .ok id⟩] := ⟨_, _, rfl⟩
          have hquiet : endsDrain ⟨.getSubscriptions req.deviceId, reply⟩ = false := rfl
          split
          · apply Prog.Spec.seq (create_sendActions fuel (unended_cons hquiet _)
              (by simp [AllFinished, handedOut]))
            rintro result past ⟨hdrained, events, rfl⟩
            cases hdrained with
            | busy h => exact .busy h
            | empty rest h => exact .drained id rest (hstored.append events) h
            | failed error rest h => exact .failed id error rest (hstored.append events) h
          · exact .queued id hstored (unended_cons hquiet _) (by simp [published])

theorem CreateRule.unended {op : Op} (h : CreateRule config req past op) : Unended past := by
  unfold CreateRule at h
  split at h
  · exact h.2.2.1
  · exact h

end Code

section Rows

variable {config : MqttConfig} {fuel : Nat} {moves : List (Move Request)} (start : World) {id : Int}

-- An update that does not claim leaves no Pending row Sent.
theorem not_sent_of_update {β : Type} {table : CommandTable β} {cond : CommandRow β → Bool}
    {status prev : CommandStatus} {now : OffsetDateTime} {row new : CommandRow β}
    (hrow : table.find id = some row) (hpending : row.status = .pending)
    (hstep : prev = .sent ∨ status = .deleted)
    (hnew : (table.update cond status prev now).find id = some new) : new.status ≠ .sent := by
  rw [CommandTable.find_update, hrow, Option.map_some, Option.some.injEq] at hnew
  subst hnew
  split_ifs with hcond
  · rw [Bool.and_eq_true, beq_iff_eq] at hcond
    rcases hstep with rfl | rfl
    · rw [hpending] at hcond
      cases hcond.2
    · simp
  · simp [hpending]

-- A statement that makes a Pending invocation Sent is a claim, and hands it out.
theorem handedOut_of_sent {event : Event Op.Ans} {w : World} (hanswer : event.2 = (sem event.1 w).1)
    {past : List (Event Op.Ans)} (hrule : CommandRule config past event.1)
    {row new : CommandRow ActionInvocation} (hrow : w.row .action id = some row)
    (hpending : row.status = .pending)
    (hnew : (sem event.1 w).2.row .action id = some new) (hsent : new.status = .sent) :
    (Queue.action, id) ∈ handedOut event := by
  have hchanged : (sem event.1 w).2.row .action id ≠ w.row .action id := by
    intro hsame
    rw [hnew, hrow, Option.some.injEq] at hsame
    rw [hsame, hpending] at hsent
    cases hsent
  obtain ⟨op, answer⟩ := event
  cases op with
  | postPublish request => exact absurd rfl hchanged
  | getSubscriptions clientId => exact absurd rfl hchanged
  | sql stmt =>
      cases hfault : w.sqlFaults 0 with
      | some error =>
          have htables := (sem_sql_fault stmt hfault).2
          exact absurd (by rw [World.row, htables]; rfl) hchanged
      | none =>
          obtain ⟨hdone, htables⟩ := sem_sql_done stmt hfault
          have hfind : w.tables.actionInvocations.find id = some row := hrow
          rw [World.row, htables] at hnew hchanged
          cases stmt with
          | insertActionInvocation productId deviceId serviceType params =>
              simp only [Sql.exec, Tables.commands, CommandTable.find_insert] at hnew
              split_ifs at hnew with hid
              · rw [hid, CommandTable.find_nextId] at hfind
                cases hfind
              · rw [hfind, Option.some.injEq] at hnew
                rw [← hnew, hpending] at hsent
                cases hsent
          | updateActionInvocationStatus _ _ _ _ status prevStatus =>
              exact absurd hsent (not_sent_of_update hfind hpending (.inl hrule.1) hnew)
          | deleteActionInvocations ids =>
              exact absurd hsent (not_sent_of_update hfind hpending (.inr rfl) hnew)
          | claimNextPendingAction productId deviceId =>
              obtain rfl : answer = .ok _ := hanswer.trans hdone
              simp only [Sql.exec] at hnew hchanged ⊢
              cases hqueue : w.tables.actionInvocations.queue productId deviceId with
              | nil => simp [hqueue, World.row] at hchanged
              | cons first rest =>
                  simp only [hqueue, Tables.commands, CommandTable.find_update, hfind,
                    Option.map_some, Option.some.injEq] at hnew
                  split_ifs at hnew with hcond
                  · rw [Bool.and_eq_true, beq_iff_eq] at hcond
                    have hid : first.id = id := hcond.1.symm.trans (CommandTable.find_id hfind)
                    simp [handedOut, claimed, hid]
                  · rw [← hnew, hpending] at hsent
                    cases hsent
          | _ => exact absurd rfl hchanged

-- A row that has left Pending was claimed or deleted.
theorem claimed_of_left {later middle earlier : List (Nat × Event Op.Ans)}
    {row : CommandRow ActionInvocation}
    {status : CommandStatus} (h : (commandRun config fuel moves start).log =
      later ++ (middle ++ earlier))
    (hrow : rowAfter start .action id earlier = some row) (hpending : row.status = .pending)
    (hstatus : (rowAfter start .action id (middle ++ earlier)).map (·.status) = some status)
    (hleft : status ≠ .pending) (hkept : status ≠ .deleted) :
    ∃ entry ∈ middle, (Queue.action, id) ∈ handedOut entry.2 := by
  induction middle generalizing later status with
  | nil =>
      rw [List.nil_append, hrow, Option.map_some, Option.some.injEq] at hstatus
      exact absurd (hstatus.symm.trans hpending) hleft
  | cons entry middle ih =>
      have hplace : (commandRun config fuel moves start).log = later ++ entry ::
          (middle ++ earlier) := h
      have hbelow : (commandRun config fuel moves start).log = (later ++ [entry]) ++
          (middle ++ earlier) := by
        simpa using h
      have htail : ∀ status, (rowAfter start .action id (middle ++ earlier)).map (·.status) =
          some status → status ≠ .pending → status ≠ .deleted →
          ∃ found ∈ entry :: middle, (Queue.action, id) ∈ handedOut found.2 := by
        intro status hstatus hleft hkept
        obtain ⟨found, hfound, hmem⟩ := ih hbelow hstatus hleft hkept
        exact ⟨found, List.mem_cons_of_mem _ hfound, hmem⟩
      obtain ⟨served, -, hrule⟩ :=
        Pool.allowed_of_log sem (serve config fuel) (spec_serve config fuel) moves start
        later (middle ++ earlier) entry.1 entry.2 hplace
      have hanswer := Pool.answered_play sem (serve config fuel) moves start later entry _ hplace
      rw [List.cons_append] at hstatus
      generalize hafter :
        rowAfter start .action id (entry :: (middle ++ earlier)) = after at hstatus
      generalize hbefore : rowAfter start .action id (middle ++ earlier) = before at htail
      have htransition := transition_log start .action id hplace
      rw [hafter, hbefore] at htransition
      cases htransition with
      | same => exact htail status hstatus hleft hkept
      | create row hnone hcreated =>
          rw [Option.map_some, Option.some.injEq] at hstatus
          exact absurd (hstatus.symm.trans hcreated) hleft
      | move found next now hfound hstep =>
          rw [Option.map_some, CommandRow.moved_status, Option.some.injEq] at hstatus
          subst hstatus
          rw [hfound] at hbefore htail
          generalize hold : found.status = old at hstep
          cases hstep with
          | claim =>
              exact ⟨entry, List.mem_cons_self,
                handedOut_of_sent hanswer hrule hbefore hold hafter rfl⟩
          | delete => exact absurd rfl hkept
          | succeed => exact htail .sent (congrArg some hold) (by decide) (by decide)
          | fail => exact htail .sent (congrArg some hold) (by decide) (by decide)

-- The status of a row that has been claimed.
theorem settled_of_claimed {later middle earlier : List (Nat × Event Op.Ans)} {thread : Nat}
    {claim : Event Op.Ans}
    (h : (commandRun config fuel moves start).log = later ++ (middle ++ (thread, claim) :: earlier))
    (hmem : (Queue.action, id) ∈ handedOut claim) :
    (rowAfter start .action id (middle ++ (thread, claim) :: earlier)).map (·.status) ≠
      some .deleted := by
  have hplace : (commandRun config fuel moves start).log = (later ++ middle) ++ (thread, claim) ::
      earlier := by
    simpa using h
  have hsent := (claim_leaves start .action id hplace hmem).2
  have hrank := along_log start .action id
    (fun found => ∃ status, found.map (·.status) = some status ∧ status ≠ .pending ∧
      status ≠ .deleted) ?_ later middle h
    ⟨.sent, hsent, by decide, by decide⟩
  · obtain ⟨status, hstatus, -, hkept⟩ := hrank
    rw [hstatus]
    simpa using hkept
  · rintro before after htransition ⟨status, hstatus, hleft, hkept⟩
    cases htransition with
    | same => exact ⟨status, hstatus, hleft, hkept⟩
    | create row hnone hcreated => simp [hnone] at hstatus
    | move found next now hfound hstep =>
        rw [hfound, Option.map_some, Option.some.injEq] at hstatus
        subst hstatus
        generalize hold : found.status = old at hstep hleft
        refine ⟨next, rfl, ?_⟩
        cases hstep with
        | claim => exact absurd rfl hleft
        | delete => exact absurd rfl hleft
        | succeed => decide
        | fail => decide

-- The row of a request, as it has been stored.
theorem row_of_insert {later earlier : List (Nat × Event Op.Ans)} {thread : Nat}
    {productId deviceId serviceType : String} {params : Json}
    (h : (commandRun config fuel moves start).log = later ++
      (thread, ⟨.sql (.insertActionInvocation productId deviceId serviceType params), .ok id⟩) ::
        earlier) :
    ∃ row, rowAfter start .action id
      ((thread, ⟨.sql (.insertActionInvocation productId deviceId serviceType params), .ok id⟩) ::
        earlier) = some row ∧
        row.status = .pending ∧ row.productId = productId ∧ row.deviceId = deviceId := by
  have hanswer := Pool.answered_play sem (serve config fuel) moves start _ _ _ h
  obtain ⟨hid, htables⟩ := sem_sql_ok hanswer.symm
  have hnext : id = (Pool.replay sem start earlier).tables.actionInvocations.nextId := hid
  refine ⟨(Pool.replay sem start earlier).tables.actionInvocations.newRow productId deviceId
    ⟨serviceType, params⟩ (Pool.replay sem start earlier).tick.clock, ?_, rfl, rfl, rfl⟩
  rw [rowAfter, World.row, Pool.replay, htables]
  simp only [Sql.exec, Tables.commands, CommandTable.find_insert]
  rw [if_pos hnext]

theorem Stored.tail {req : CreateActionCommandRequest} {claim : Event Op.Ans}
    {past : List (Event Op.Ans)}
    (h : Stored req id (claim :: past)) (hends : endsDrain claim = true) : Stored req id past := by
  obtain ⟨serviceType, params, hlast⟩ := h
  cases past with
  | nil =>
      rw [List.getLast?_singleton, Option.some.injEq] at hlast
      rw [hlast] at hends
      cases hends
  | cons event past => exact ⟨serviceType, params, by rwa [List.getLast?_cons_cons] at hlast⟩

-- The row of a request was Pending when it was stored, and it keeps its device.
theorem stored_row {req : CreateActionCommandRequest} {later earlier : List (Nat × Event Op.Ans)}
    {thread : Nat} (h : (commandRun config fuel moves start).log = later ++ earlier)
    (hstored : Stored req id (Pool.history thread earlier)) :
    ∃ middle older row now, earlier = middle ++ older ∧ rowAfter start .action id older = some row ∧
      row.status = .pending ∧ rowAfter start .action id earlier = some now ∧
        now.productId = req.productId ∧
      now.deviceId = req.deviceId := by
  obtain ⟨serviceType, params, hlast⟩ := hstored
  have hmem := Pool.mem_history.mp (List.mem_of_getLast? hlast)
  obtain ⟨middle, before, rfl⟩ := List.append_of_mem hmem
  rw [← List.append_assoc] at h
  obtain ⟨row, hrow, hpending, hproduct, hdevice⟩ := row_of_insert start h
  rw [List.append_assoc] at h
  have hkeep : ∀ found new : Option (CommandRow ActionInvocation), Transition found new →
      (∃ now, found = some now ∧ now.productId = req.productId ∧ now.deviceId = req.deviceId) →
      ∃ now, new = some now ∧ now.productId = req.productId ∧ now.deviceId = req.deviceId := by
    rintro found new htransition ⟨old, hold, holdProduct, holdDevice⟩
    obtain ⟨now, hnow, -, ⟨hsameProduct, hsameDevice⟩, -⟩ := htransition.kept hold
    exact ⟨now, hnow, hsameProduct.trans holdProduct, hsameDevice.trans holdDevice⟩
  obtain ⟨now, hnow⟩ := along_log start .action id
    (fun found => ∃ now, found = some now ∧ now.productId = req.productId ∧ now.deviceId =
      req.deviceId) hkeep later
    middle h ⟨row, hrow, hproduct, hdevice⟩
  exact ⟨middle, _, row, now, rfl, hrow, hpending, hnow⟩

-- A claim that finds nothing has seen no Pending row of its device.
theorem not_pending_of_empty {later earlier : List (Nat × Event Op.Ans)} {thread : Nat}
    {productId deviceId : String} (h : (commandRun config fuel moves start).log =
      later ++ (thread, ⟨.sql (.claimNextPendingAction productId deviceId), .ok none⟩) :: earlier)
    {now : CommandRow ActionInvocation} (hnow : rowAfter start .action id earlier = some now)
    (hproduct : now.productId = productId) (hdevice : now.deviceId = deviceId) :
    now.status ≠ .pending := by
  intro hpending
  have hqueued : now ∈ (Pool.replay sem start earlier).tables.actionInvocations.queue productId
      deviceId :=
    (CommandTable.mem_queue _ _ _ _).mpr
      ⟨((CommandTable.find_eq_some_iff _ _ _).mp hnow).1, hproduct, hdevice, hpending⟩
  have hanswer := (sem_sql_ok (Pool.answered_play sem (serve config fuel) moves start
      _ _ _ h).symm).1
  simp only [Sql.exec] at hanswer
  cases hqueue : (Pool.replay sem start earlier).tables.actionInvocations.queue productId deviceId
    with
  | nil => simp [hqueue] at hqueued
  | cons first rest => simp [hqueue] at hanswer

end Rows

-- The answer of a creation that has returned with its row.
def answerOf (pool : Pool World Request Op.Ans (Option Reply)) (thread : Nat) :
    Option (Int × CommandStatus) :=
  match pool.threads[thread]? with
  | some ⟨.createServiceCommand _, .ret (some (.invocation id status))⟩ => some (id, status)
  | _ => none

-- Sent: the broker has accepted the row, from this request or from another one.
-- Pending: it has not accepted it from this request.
structure Truthful (pool : Pool World Request Op.Ans (Option Reply)) : Prop where
  sent : ∀ thread id, answerOf pool thread = some (id, .sent) →
    ∃ other, Accepted .action id (Pool.history other pool.log)
  pending : ∀ thread id, answerOf pool thread = some (id, .pending) →
    ¬Accepted .action id (Pool.history thread pool.log)

def Refused (id : Int) (log : List (Nat × Event Op.Ans)) : Prop :=
  ∀ entry ∈ attempts .action id log, accepted entry.2 = false

-- The row has not been deleted in the queue, the broker has not refused all of its
-- attempts, and no other drain has claimed it and has attempts left.
structure Undisturbed (config : MqttConfig) (start : World) (thread : Nat) (id : Int)
    (earlier : List (Nat × Event Op.Ans)) : Prop where
  kept : (rowAfter start .action id earlier).map (·.status) ≠ some .deleted
  taken : ¬((attempts .action id earlier).length = config.attempts ∧ Refused id earlier)
  alone : ¬∃ other claim, other ≠ thread ∧ (other, claim) ∈ earlier ∧
    (Queue.action, id) ∈ handedOut claim ∧
    (attempts .action id earlier).length < config.attempts ∧ Refused id earlier

-- The last step was the claim that has ended the drain of a creation. When it has found
-- nothing, the row of the request was left undisturbed; it has not failed after the
-- broker had accepted that row from the request.
def DrainEndsWell (config : MqttConfig) (start : World)
    (pool : Pool World Request Op.Ans (Option Reply)) : Prop :=
  ∀ thread id req program productId deviceId answer earlier,
    pool.threads[thread]? = some ⟨.createServiceCommand req, program⟩ →
      Stored req id (Pool.history thread pool.log) →
    pool.log = (thread, ⟨.sql (.claimNextPendingAction productId deviceId), answer⟩) :: earlier →
    (answer = .ok none → Undisturbed config start thread id earlier) ∧
      ∀ error, answer = .error error → ¬Accepted .action id (Pool.history thread earlier)

section Run

variable {config : MqttConfig} {fuel : Nat} {moves : List (Move Request)} {start : World}
  {thread : Nat} {id : Int} {req : CreateActionCommandRequest}

def ServeRule (config : MqttConfig) : Request → List (Event Op.Ans) → Op → Prop
  | .createServiceCommand req, past, op => CreateRule config req past op
  | _, _, _ => True

def ServeOutcome : Request → Option Reply → List (Event Op.Ans) → Prop
  | .createServiceCommand req, reply, past => Outcome req past reply
  | _, _, _ => True

theorem create_serve (config : MqttConfig) (fuel : Nat) (request : Request) :
    Prog.Spec (ServeRule config request) (ServeOutcome request) (serve config fuel request) [] := by
  have hfree : ∀ program : M (Option Reply), Prog.Spec (fun _ _ => True) (fun _ _ => True) program
      [] :=
    fun program => (Prog.uses_true program).spec (fun _ => True) (fun _ _ _ _ => trivial)
      (fun _ _ _ _ _ => trivial) trivial
  cases request with
  | createServiceCommand req => exact create_createServiceCommand config fuel req
  | _ => exact hfree _

theorem Stored.unique {past : List (Event Op.Ans)} {other : Int} (h : Stored req id past)
    (h' : Stored req other past) :
    id = other := by
  obtain ⟨_, _, hlast⟩ := h
  obtain ⟨_, _, hlast'⟩ := h'
  have heq := Option.some.inj (hlast.symm.trans hlast')
  cases heq
  rfl

theorem answerOf_eq {status : CommandStatus} {pool : Pool World Request Op.Ans (Option Reply)} :
    answerOf pool thread = some (id, status) ↔
      ∃ req, pool.threads[thread]? = some ⟨.createServiceCommand req,
        .ret (some (.invocation id status))⟩ := by
  unfold answerOf
  constructor
  · intro h
    split at h
    · rename_i req _ _ hthread
      simp only [Option.some.injEq, Prod.mk.injEq] at h
      exact ⟨req, by rw [hthread, h.1, h.2]⟩
    · cases h
  · rintro ⟨req, h⟩
    rw [h]

-- Nothing follows the claim that has ended the drain, and it decides the answer.
theorem ended_program {program : M (Option Reply)} {claim : Event Op.Ans}
    {past : List (Event Op.Ans)}
    (h : Prog.Spec (CreateRule config req) (fun reply past => Outcome req past reply) program
      (claim :: past))
    (hends : endsDrain claim = true) (hstored : Stored req id (claim :: past)) :
    (claim = ⟨.sql (.claimNextPendingAction req.productId req.deviceId), .ok none⟩ ∧
        program = .ret (some (.invocation id .sent))) ∨
      ∃ error, claim = ⟨.sql (.claimNextPendingAction req.productId req.deviceId), .error error⟩ ∧
        program = .ret (some (.invocation id .pending)) := by
  have hended : ¬Unended (claim :: past) := by
    intro hunended
    rw [hunended claim rfl] at hends
    cases hends
  cases program with
  | call op next => exact absurd (CreateRule.unended h.1) hended
  | ret reply =>
      cases h with
      | error error hunended => exact absurd hunended hended
      | busy hunended => exact absurd hunended hended
      | queued other _ hunended _ => exact absurd hunended hended
      | drained other rest hother hclaim =>
          rw [List.cons.injEq] at hclaim
          exact .inl ⟨hclaim.1, by rw [hstored.unique hother]⟩
      | failed other error rest hother hclaim =>
          rw [List.cons.injEq] at hclaim
          exact .inr ⟨error, hclaim.1, by rw [hstored.unique hother]⟩

theorem answer_of_claim {program : M (Option Reply)} {productId deviceId : String}
    {answer : Except String (Option (CommandRow ActionInvocation))}
    {earlier : List (Nat × Event Op.Ans)}
    (hthread : (commandRun config fuel moves start).threads[thread]? =
      some ⟨.createServiceCommand req, program⟩)
    (hstored : Stored req id (Pool.history thread (commandRun config fuel moves start).log))
    (hlog : (commandRun config fuel moves start).log =
      (thread, ⟨.sql (.claimNextPendingAction productId deviceId), answer⟩) :: earlier) :
    (answer = .ok none → answerOf (commandRun config fuel moves start) thread = some (id, .sent)) ∧
      ∀ error, answer = .error error → answerOf (commandRun config fuel moves start) thread =
        some (id, .pending) := by
  have hspec := Pool.spec_play sem (serve config fuel) (create_serve config fuel) moves start thread
      _ hthread
  rw [hlog, Pool.history_cons_self] at hspec hstored
  constructor
  · rintro rfl
    rcases ended_program hspec rfl hstored with ⟨-, rfl⟩ | ⟨error, hclaim, -⟩
    · exact answerOf_eq.mpr ⟨req, hthread⟩
    · cases hclaim
  · rintro error rfl
    rcases ended_program hspec rfl hstored with ⟨hclaim, -⟩ | ⟨_, -, rfl⟩
    · cases hclaim
    · exact answerOf_eq.mpr ⟨req, hthread⟩

theorem attempts_length_le (config : MqttConfig) (fuel : Nat) (moves : List (Move Request))
    (start : World) (queue : Queue) (id : Int) :
    (attempts queue id (commandRun config fuel moves start).log).length ≤ config.attempts := by
  by_cases hnone : attempts queue id (commandRun config fuel moves start).log = []
  · simp [hnone]
  · obtain ⟨_, _, _, _, _, _, _, _, hlength, _⟩ := handed_over_once start queue id hnone
    exact hlength

-- When the drain has found nothing, and the row has not been deleted, some drain has
-- claimed it. What the request itself has claimed is done with.
theorem claimed_of_empty {program : M (Option Reply)} {productId deviceId : String}
    {earlier : List (Nat × Event Op.Ans)}
    (hthread : (commandRun config fuel moves start).threads[thread]? =
      some ⟨.createServiceCommand req, program⟩)
    (hstored : Stored req id (Pool.history thread (commandRun config fuel moves start).log))
    (hlog : (commandRun config fuel moves start).log =
      (thread, ⟨.sql (.claimNextPendingAction productId deviceId), .ok none⟩) :: earlier)
    (hkept : (rowAfter start .action id earlier).map (·.status) ≠ some .deleted) :
    AllFinished config (Pool.history thread earlier) ∧
      ∃ other claim, (other, claim) ∈ earlier ∧ (Queue.action, id) ∈ handedOut claim := by
  obtain ⟨served, hserved, hrule⟩ :=
    Pool.allowed_of_log sem (serve config fuel) (create_serve config fuel) moves start
    [] earlier thread _ hlog
  rw [hthread, Option.some.injEq] at hserved
  subst hserved
  obtain ⟨rfl, rfl, -, hfinished⟩ := hrule
  refine ⟨hfinished, ?_⟩
  rw [hlog, Pool.history_cons_self] at hstored
  have hplace : (commandRun config fuel moves start).log =
      [(thread, ⟨.sql (.claimNextPendingAction req.productId req.deviceId), .ok none⟩)] ++
        earlier := hlog
  obtain ⟨middle, older, row, now, rfl, hrow, hpending, hnow, hproduct, hdevice⟩ :=
    stored_row start hplace (hstored.tail rfl)
  have hentry : (commandRun config fuel moves start).log =
      [] ++ (thread, ⟨.sql (.claimNextPendingAction req.productId req.deviceId), .ok none⟩) ::
        (middle ++ older) := hlog
  have hleft := not_pending_of_empty start hentry hnow hproduct hdevice
  have hstatus : (rowAfter start .action id (middle ++ older)).map (·.status) =
      some now.status := by
    rw [hnow]
    rfl
  obtain ⟨⟨other, claim⟩, hclaim, hhanded⟩ :=
    claimed_of_left start hplace hrow hpending hstatus hleft
    fun hdeleted => hkept (hstatus.trans (congrArg some hdeleted))
  exact ⟨other, claim, List.mem_append_left _ hclaim, hhanded⟩

theorem accepted_of_undisturbed {program : M (Option Reply)} {productId deviceId : String}
    {earlier : List (Nat × Event Op.Ans)}
    (hthread : (commandRun config fuel moves start).threads[thread]? =
      some ⟨.createServiceCommand req, program⟩)
    (hstored : Stored req id (Pool.history thread (commandRun config fuel moves start).log))
    (hlog : (commandRun config fuel moves start).log =
      (thread, ⟨.sql (.claimNextPendingAction productId deviceId), .ok none⟩) :: earlier)
    (hcalm : Undisturbed config start thread id earlier) :
    ∃ other, Accepted .action id (Pool.history other earlier) := by
  by_contra hnone
  have hrefused : Refused id earlier := by
    intro entry hentry
    obtain ⟨hmem, hpublished⟩ := (mem_attempts .action id).mp hentry
    by_contra haccepted
    rw [Bool.not_eq_false] at haccepted
    exact hnone ⟨entry.1, entry.2, Pool.mem_history.mpr hmem, hpublished, haccepted⟩
  obtain ⟨hfinished, other, claim, hclaim, hhanded⟩ :=
    claimed_of_empty hthread hstored hlog hcalm.kept
  -- No attempt was accepted, so some are left, and the row is not the request's own any more.
  have hbound := attempts_length_le config fuel moves start .action id
  have hsame : attempts .action id (commandRun config fuel moves start).log =
      attempts .action id earlier := by
    rw [hlog]
    simp [attempts, published]
  rw [hsame] at hbound
  have hshort : (attempts .action id earlier).length < config.attempts :=
    lt_of_le_of_ne hbound fun hall => hcalm.taken ⟨hall, hrefused⟩
  by_cases hown : other = thread
  · subst hown
    rcases hfinished id ⟨claim, Pool.mem_history.mpr hclaim, hhanded⟩ with haccepted | hcount
    · exact hnone ⟨other, haccepted⟩
    · have hle := Pool.countP_history_le other (published · == some (correlationId (.action, id)))
          earlier
      have hlength : (attempts .action id earlier).length =
          earlier.countP fun entry => published entry.2 == some (correlationId (.action, id)) :=
        List.countP_eq_length_filter.symm
      exact absurd (hcount.trans hle) (by rw [← hlength]; exact not_le.mpr hshort)
  · exact hcalm.alone ⟨other, claim, hown, hclaim, hhanded, hshort, hrefused⟩

-- A row that the broker has accepted was claimed, so it was not deleted in the queue.
theorem undisturbed_of_accepted {earlier : List (Nat × Event Op.Ans)} {last : Nat × Event Op.Ans}
    {other : Nat} (hlog : (commandRun config fuel moves start).log = last :: earlier)
    (haccepted : Accepted .action id (Pool.history other earlier)) :
    Undisturbed config start thread id earlier := by
  obtain ⟨event, hevent, hpublished, htaken⟩ := haccepted
  have hmem := Pool.mem_history.mp hevent
  have hnot : ¬Refused id earlier := by
    intro hrefused
    rw [hrefused (other, event) ((mem_attempts .action id).mpr ⟨hmem, hpublished⟩)] at htaken
    cases htaken
  refine ⟨?_, fun h => hnot h.2, fun ⟨_, _, _, _, _, _, h⟩ => hnot h⟩
  obtain ⟨later, before, rfl⟩ := List.append_of_mem hmem
  have hplace : (commandRun config fuel moves start).log = (last :: later) ++ (other, event) ::
      before := hlog
  obtain ⟨_, _, claim, done, rest, between, older, rfl, -, hclaim, -⟩ :=
    claim_of_published start .action id hplace hpublished
  have hlast : (commandRun config fuel moves start).log =
      [last] ++ ((later ++ (other, event) :: between) ++ (other, claim) :: older) := by
    rw [hlog]
    simp
  have hhanded : (Queue.action, id) ∈ handedOut claim := by simp [hclaim]
  have hsettled := settled_of_claimed start hlast hhanded
  rw [List.append_assoc, List.cons_append] at hsettled
  exact hsettled

-- The moment at which the drain of a creation that has returned ended.
theorem moment_of_end {reply : Option Reply} {claim : Event Op.Ans} {rest : List (Event Op.Ans)}
    (hthread : (commandRun config fuel moves start).threads[thread]? =
      some ⟨.createServiceCommand req, .ret reply⟩)
    (hstored : Stored req id (Pool.history thread (commandRun config fuel moves start).log))
    (hhistory : Pool.history thread (commandRun config fuel moves start).log = claim :: rest) :
    ∃ moment program earlier, moment <+: moves ∧
      (commandRun config fuel moment start).threads[thread]? = some ⟨.createServiceCommand req,
        program⟩ ∧
      Stored req id (Pool.history thread (commandRun config fuel moment start).log) ∧
      (commandRun config fuel moment start).log = (thread, claim) :: earlier ∧
      Pool.history thread earlier = rest ∧
        earlier <:+ (commandRun config fuel moves start).log := by
  obtain ⟨moment, program, earlier, hmoment, hbefore, hlog, hearlier, hsuffix⟩ :=
    Pool.moment_of_history sem (serve config fuel) moves start hthread hhistory
  refine ⟨moment, program, earlier, hmoment, hbefore, ?_, hlog, hearlier, hsuffix⟩
  rw [hhistory, ← hearlier] at hstored
  rw [commandRun, hlog, Pool.history_cons_self]
  exact hstored

theorem accepted_before_claim {claim : Nat × Event Op.Ans} {earlier : List (Nat × Event Op.Ans)}
    {other : Nat} (hclaim : published claim.2 = none)
    (h : Accepted .action id (Pool.history other (claim :: earlier))) :
    Accepted .action id (Pool.history other earlier) := by
  obtain ⟨event, hevent, hpublished, haccepted⟩ := h
  refine ⟨event, ?_, hpublished, haccepted⟩
  rcases List.mem_cons.mp (Pool.mem_history.mp hevent) with rfl | hmem
  · rw [hpublished] at hclaim
    cases hclaim
  · exact Pool.mem_history.mpr hmem

-- What the condition says of the newest step, the answer that goes by that step needs.
theorem endsWell_of_truthful (h : Truthful (commandRun config fuel moves start)) :
    DrainEndsWell config start (commandRun config fuel moves start) := by
  intro thread id req program productId deviceId answer earlier hthread hstored hlog
  obtain ⟨hnone, herror⟩ := answer_of_claim hthread hstored hlog
  constructor
  · intro hanswer
    obtain ⟨other, haccepted⟩ := h.sent thread id (hnone hanswer)
    rw [hlog] at haccepted
    exact undisturbed_of_accepted hlog (accepted_before_claim rfl haccepted)
  · intro error hanswer haccepted
    apply h.pending thread id (herror error hanswer)
    rw [hlog, Pool.history_cons_self]
    obtain ⟨event, hevent, htaken⟩ := haccepted
    exact ⟨event, List.mem_cons_of_mem _ hevent, htaken⟩

-- An answer goes by the claim that has ended its drain, at whatever moment that was.
theorem truthful_of_endsWell
    (h : ∀ moment, moment <+: moves →
      DrainEndsWell config start (commandRun config fuel moment start)) :
    Truthful (commandRun config fuel moves start) := by
  constructor
  · intro thread id hanswer
    obtain ⟨req, hthread⟩ := answerOf_eq.mp hanswer
    have houtcome := Pool.spec_play sem (serve config fuel) (create_serve config fuel) moves start
        thread _ hthread
    cases houtcome with
    | drained _ rest hstored hhistory =>
        obtain ⟨moment, program, earlier, hmoment, hbefore, hstored, hlog, -, hsuffix⟩ :=
          moment_of_end hthread hstored hhistory
        obtain ⟨hempty, -⟩ :=
          h moment hmoment thread id req program _ _ _ earlier hbefore hstored hlog
        obtain ⟨other, event, hevent, htaken⟩ :=
          accepted_of_undisturbed hbefore hstored hlog (hempty rfl)
        exact ⟨other, event, (Pool.history_suffix other hsuffix).subset hevent, htaken⟩
  · intro thread id hanswer haccepted
    obtain ⟨req, hthread⟩ := answerOf_eq.mp hanswer
    have houtcome := Pool.spec_play sem (serve config fuel) (create_serve config fuel) moves start
        thread _ hthread
    obtain ⟨event, hevent, hpublished, htaken⟩ := haccepted
    cases houtcome with
    | queued _ hstored hunended hnone =>
        rw [hnone event hevent] at hpublished
        cases hpublished
    | failed _ error rest hstored hhistory =>
        obtain ⟨moment, program, earlier, hmoment, hbefore, hstored, hlog, hearlier, -⟩ :=
          moment_of_end hthread hstored hhistory
        obtain ⟨-, hfailed⟩ :=
          h moment hmoment thread id req program _ _ _ earlier hbefore hstored hlog
        apply hfailed error rfl
        rw [hearlier]
        rw [hhistory] at hevent
        rcases List.mem_cons.mp hevent with rfl | hrest
        · cases hpublished
        · exact ⟨event, hrest, hpublished, htaken⟩

end Run

-- At every moment of every run the answers are true exactly if, at every moment of it, a
-- claim that ends the drain of a creation ends it well.
theorem service_status_truthful_iff (config : MqttConfig) (fuel : Nat) (moves : List (Move Request))
    (start : World) :
    (∀ first, first <+: moves → Truthful (commandRun config fuel first start)) ↔
      ∀ first, first <+: moves →
        DrainEndsWell config start (commandRun config fuel first start) := by
  constructor
  · intro h first hfirst
    exact endsWell_of_truthful (h first hfirst)
  · intro h first hfirst
    apply truthful_of_endsWell
    intro moment hmoment
    exact h moment (hmoment.trans hfirst)

section Demo

def reboot : Request := .createServiceCommand ⟨"p", "d", "reboot", .null⟩

-- The device is subscribed, and the broker refuses every message.
def refusingBroker : World :=
  { World.started .empty with
    publishes := fun _ => .response 500 ()
    subscriptions := fun _ => .response 200 (some [⟨"p/d/thing/service/reboot/set"⟩]) }

-- The broker accepts the message, and the statement after the first claim fails.
def lostConnection : World :=
  { World.started .empty with
    sqlFaults := fun n => if n = 2 then some "connection closed" else none
    subscriptions := fun _ => .response 200 (some [⟨"p/d/thing/service/reboot/set"⟩]) }

def rebootRun (start : World) : Pool World Request Op.Ans (Option Reply) :=
  commandRun testConfig 2 (.spawn reboot :: List.replicate 6 (.step 0)) start

theorem refused_answered_sent :
    ¬Truthful (rebootRun refusingBroker) ∧ ¬Truthful (rebootRun lostConnection) := by
  constructor
  · intro h
    obtain ⟨other, event, hevent, -, htaken⟩ := h.sent 0 1 (by decide +kernel)
    have hnone : ∀ entry ∈ (rebootRun refusingBroker).log, accepted entry.2 = false := by
      decide +kernel
    rw [hnone _ (Pool.mem_history.mp hevent)] at htaken
    cases htaken
  · intro h
    apply h.pending 0 1 (by decide +kernel)
    have hget : ((Pool.history 0 (rebootRun lostConnection).log)[1]?.map fun event =>
        (published event, accepted event)) =
        some (some (correlationId (.action, 1)), true) := by decide +kernel
    obtain ⟨event, hevent, heq⟩ := Option.map_eq_some_iff.mp hget
    rw [Prod.mk.injEq] at heq
    exact ⟨event, List.mem_of_getElem? hevent, heq.1, heq.2⟩

end Demo

end RmqttThings.Commands
