import RmqttThings.Commands.Orphans

namespace RmqttThings.Commands

open Effects

-- The requests that may start a drain of the action queue.
inductive Drainer where
  | createServiceCommand (req : CreateActionCommandRequest)
  | serviceSetSubscribe (msg : RMqttSubscribeMessage)
  | deviceConnect (req : DeviceConnectRequest)

namespace Drainer

def request : Drainer → Request
  | createServiceCommand req => .createServiceCommand req
  | serviceSetSubscribe msg => .serviceSetSubscribe msg
  | deviceConnect req => .deviceConnect req

-- The product, the device and the service type that the gate asks about. A request that
-- is refused has no gate.
def gate : Drainer → Option (String × String × String)
  | createServiceCommand req =>
      match validateDevice req.productId req.deviceId, validateServiceType req.serviceType with
      | .ok _, .ok _ => some (req.productId, req.deviceId, req.serviceType)
      | _, _ => none
  | serviceSetSubscribe msg =>
      match validateSubscribe msg with
      | .ok _ => some (msg.username.getD "", msg.clientId, "property")
      | .error _ => none
  | deviceConnect req =>
      match resolveDeviceIdentity req with
      | .ok (productId, deviceId) => some (productId, deviceId, "property")
      | .error _ => none

end Drainer

-- The subscriptions that `get_subscriptions` makes of a reply, if it is not an error.
def readSubscriptions : HttpReply (Option (List Subscription)) → Option (List Subscription)
  | .failed _ => none
  | .response status body => if 200 ≤ status ∧ status ≤ 299 then body else some []

def gateRead : Event Op.Ans → Option (List Subscription)
  | ⟨.getSubscriptions _, reply⟩ => readSubscriptions reply
  | _ => none

-- The invocation that a claim has flipped to Sent.
def claimedAction : Event Op.Ans → Option (CommandRow ActionInvocation)
  | ⟨.sql (.claimNextPendingAction _ _), .ok row⟩ => row
  | _ => none

-- What a gate demands of the subscriptions that it reads for an invocation of the product,
-- the device and the service type.
abbrev Demand := List Subscription → String → String → String → Prop

-- The gate has read subscriptions that meet the demand.
def Matched (demand : Demand) (events : List (Event Op.Ans)) (row : CommandRow ActionInvocation) :
    Prop :=
  ∃ event ∈ events, ∃ subscriptions, gateRead event = some subscriptions ∧
    demand subscriptions row.productId row.deviceId row.body.serviceType

-- What leaves the queue during a call meets the demand; what does not meet it stays as it
-- was, or as it was created by the call.
structure LeavesOnly (demand : Demand) (before : World) (events : List (Event Op.Ans))
    (after : World) : Prop where
  claims : ∀ event ∈ events, ∀ row, claimedAction event = some row → Matched demand events row
  kept : ∀ row, before.row .action row.id = some row → row.status = .pending →
    ¬Matched demand events row → after.row .action row.id = some row
  created : ∀ row, before.row .action row.id = none → after.row .action row.id = some row →
    ¬Matched demand events row → row.status = .pending

-- One of the subscriptions matches the topic of the invocation.
def ownTopic : Demand := fun subscriptions productId deviceId serviceType =>
  subscribedTo subscriptions productId deviceId serviceType = true

-- One of the subscriptions matches the topic that the request's gate asks about.
def gateTopic (drainer : Drainer) : Demand := fun subscriptions productId deviceId _ =>
  ∃ serviceType, drainer.gate = some (productId, deviceId, serviceType) ∧
    subscribedTo subscriptions productId deviceId serviceType = true

-- What the drains of a device do.
inductive DrainOp (productId deviceId : String) : Op → Prop where
  | publish (request : PublishRequest) : DrainOp productId deviceId (.postPublish request)
  | claimAll : DrainOp productId deviceId (.sql (.updatePendingCommandsToSent productId deviceId))
  | propertyFailed (ids : List Int) :
      DrainOp productId deviceId (.sql (.updateSentCommandsToFailed ids))
  | claimNext : DrainOp productId deviceId (.sql (.claimNextPendingAction productId deviceId))
  | actionFailed (id : Int) (serviceType : String) :
      DrainOp productId deviceId
        (.sql (.updateActionInvocationStatus id productId deviceId serviceType .failed .sent))

section Footprint

variable {config : MqttConfig} {productId deviceId : String}

theorem uses_publishAttempts (request : PublishRequest) (attempts : Nat) :
    (publishAttempts request attempts).Uses (DrainOp productId deviceId) := by
  induction attempts with
  | zero => trivial
  | succ attempts ih =>
      rw [publishAttempts_succ, Prog.uses_call]
      refine ⟨.publish request, ?_⟩
      intro reply
      split_ifs
      · trivial
      · exact ih

theorem uses_publishCommand (request : PublishRequest) :
    (publishCommand config request).Uses (DrainOp productId deviceId) := by
  apply Prog.Uses.bind (uses_publishAttempts request _)
  intro ok
  cases ok <;> trivial

theorem uses_publishProperties (rows : List (CommandRow PropertyCommand)) :
    (publishProperties config productId deviceId rows).Uses (DrainOp productId deviceId) := by
  induction rows with
  | nil => trivial
  | cons row rows ih =>
      unfold publishProperties
      apply Prog.Uses.bind (uses_publishCommand _)
      intro result
      cases result with
      | ok _ => exact ih
      | error _ =>
          refine ⟨.propertyFailed [row.id], ?_⟩
          intro recorded
          cases recorded with
          | ok _ => exact ih
          | error _ => trivial

theorem uses_sendProperty :
    (sendPropertyCommandToDevice config productId deviceId).Uses (DrainOp productId deviceId) := by
  refine ⟨.claimAll, ?_⟩
  intro commands
  cases commands with
  | ok commands => exact uses_publishProperties commands
  | error _ => trivial

theorem uses_publishAction (row : CommandRow ActionInvocation) :
    (publishAction config productId deviceId row).Uses (DrainOp productId deviceId) := by
  apply Prog.Uses.bind (uses_publishCommand _)
  intro result
  cases result with
  | ok _ => trivial
  | error _ => exact ⟨.actionFailed row.id row.body.serviceType, fun _ => trivial⟩

theorem uses_sendActions (fuel : Nat) :
    (sendActionInvocationsToDevice config productId deviceId fuel).Uses
      (DrainOp productId deviceId) := by
  induction fuel with
  | zero => trivial
  | succ fuel ih =>
      refine ⟨.claimNext, ?_⟩
      intro claim
      cases claim with
      | error _ => trivial
      | ok found =>
          cases found with
          | none => trivial
          | some row =>
              apply Prog.Uses.bind (uses_publishAction row)
              exact fun _ => ih

end Footprint

section Leaves

variable {demand : Demand} {start w w' : World} {past : List (Event Op.Ans)} {event : Event Op.Ans}
  {row : CommandRow ActionInvocation}

theorem Matched.cons (h : Matched demand past row) : Matched demand (event :: past) row := by
  obtain ⟨read, hmem, h⟩ := h
  exact ⟨read, List.mem_cons_of_mem _ hmem, h⟩

theorem leavesOnly_start : LeavesOnly demand w [] w := by
  refine ⟨by simp, fun row hrow _ _ => hrow, ?_⟩
  intro row hnone hrow
  rw [hnone] at hrow
  cases hrow

theorem LeavesOnly.claims_cons (h : LeavesOnly demand start past w)
    (hevent : ∀ row, claimedAction event = some row → Matched demand past row) :
    ∀ other ∈ event :: past, ∀ row, claimedAction other = some row →
      Matched demand (event :: past) row := by
  intro other hother row hrow
  rcases List.mem_cons.mp hother with rfl | hother
  · exact (hevent row hrow).cons
  · exact (h.claims other hother row hrow).cons

-- An operation that leaves the invocations alone.
theorem LeavesOnly.same (h : LeavesOnly demand start past w) (hevent : claimedAction event = none)
    (htable : w'.tables.actionInvocations = w.tables.actionInvocations) :
    LeavesOnly demand start (event :: past) w' := by
  have hrows : ∀ id, w'.row .action id = w.row .action id := by
    intro id
    simp only [World.row, Tables.commands, htable]
  refine ⟨h.claims_cons fun row hrow => absurd (hrow.symm.trans hevent) (Option.some_ne_none row),
    ?_, ?_⟩
  · intro row hrow hpending hnot
    rw [hrows]
    exact h.kept row hrow hpending fun hm => hnot hm.cons
  · intro row hnone hrow hnot
    rw [hrows] at hrow
    exact h.created row hnone hrow fun hm => hnot hm.cons

-- A status change hits a Pending row only when it meets the demand.
theorem LeavesOnly.update {cond : CommandRow ActionInvocation → Bool} {status prev : CommandStatus}
    {now : OffsetDateTime} (h : LeavesOnly demand start past w)
    (hevent : ∀ row, claimedAction event = some row → Matched demand past row)
    (htable : w'.tables.actionInvocations = w.tables.actionInvocations.update cond status prev now)
    (hhit : ∀ row, w.row .action row.id = some row → cond row = true → prev = .pending →
      Matched demand past row) :
    LeavesOnly demand start (event :: past) w' := by
  have hrows : ∀ id, w'.row .action id = (w.row .action id).map fun row =>
      if cond row && row.status == prev then row.moved status now else row := by
    intro id
    simp only [World.row, Tables.commands, htable, CommandTable.find_update]
  refine ⟨h.claims_cons hevent, ?_, ?_⟩
  · intro row hrow hpending hnot
    have hold := h.kept row hrow hpending fun hm => hnot hm.cons
    rw [hrows, hold, Option.map_some, if_neg]
    simp only [Bool.and_eq_true, beq_iff_eq, not_and]
    intro hcond hprev
    exact hnot (hhit row hold hcond (hprev.symm.trans hpending)).cons
  · intro row hnone hrow hnot
    rw [hrows] at hrow
    obtain ⟨old, hold, he⟩ := Option.map_eq_some_iff.mp hrow
    have hid : old.id = row.id := CommandTable.find_id hold
    rw [← hid] at hnone hold
    split_ifs at he with hcond
    · -- the row would have been Pending, and not matched
      rw [Bool.and_eq_true, beq_iff_eq] at hcond
      subst he
      have hpending := h.created old hnone hold fun hm => hnot hm.cons
      exact absurd (hhit old hold hcond.1 (hcond.2.symm.trans hpending)).cons hnot
    · subst he
      exact h.created old hnone hold fun hm => hnot hm.cons

theorem LeavesOnly.insert {productId deviceId : String} {body : ActionInvocation}
    {now : OffsetDateTime} (h : LeavesOnly demand start past w)
    (hevent : claimedAction event = none)
    (htable : w'.tables.actionInvocations = w.tables.actionInvocations.insert productId deviceId
      body now) :
    LeavesOnly demand start (event :: past) w' := by
  have hrows : ∀ id, w'.row .action id = if id = w.tables.actionInvocations.nextId then
      some (w.tables.actionInvocations.newRow productId deviceId body now) else w.row
        .action id := by
    intro id
    simp only [World.row, Tables.commands, htable, CommandTable.find_insert]
  refine ⟨h.claims_cons fun row hrow => absurd (hrow.symm.trans hevent) (Option.some_ne_none row),
    ?_, ?_⟩
  · intro row hrow hpending hnot
    have hold := h.kept row hrow hpending fun hm => hnot hm.cons
    have hne : row.id ≠ w.tables.actionInvocations.nextId := by
      intro he
      rw [World.row, he] at hold
      exact absurd (hold.symm.trans (CommandTable.find_nextId _)) (by simp)
    rw [hrows, if_neg hne]
    exact hold
  · intro row hnone hrow hnot
    rw [hrows] at hrow
    split_ifs at hrow with he
    · rw [← Option.some.inj hrow]
      rfl
    · exact h.created row hnone hrow fun hm => hnot hm.cons

-- While a device is drained, all that waits is matched.
structure Guarded (demand : Demand) (productId deviceId : String) (start : World)
    (past : List (Event Op.Ans)) (w : World) : Prop where
  leaves : LeavesOnly demand start past w
  waiting : ∀ row ∈ w.actionQueue productId deviceId, Matched demand past row

theorem Guarded.same {productId deviceId : String}
    (h : Guarded demand productId deviceId start past w) (hevent : claimedAction event = none)
    (htable : w'.tables.actionInvocations = w.tables.actionInvocations) :
    Guarded demand productId deviceId start (event :: past) w' := by
  refine ⟨h.leaves.same hevent htable, ?_⟩
  intro row hrow
  rw [World.actionQueue, htable] at hrow
  exact (h.waiting row hrow).cons

theorem guarded_claimNext {productId deviceId : String}
    (h : Guarded demand productId deviceId start past w) :
    Guarded demand productId deviceId start (⟨.sql (.claimNextPendingAction productId deviceId),
      (sem (.sql (.claimNextPendingAction productId deviceId)) w).1⟩ :: past)
      (sem (.sql (.claimNextPendingAction productId deviceId)) w).2 := by
  cases hfault : w.sqlFaults 0 with
  | some error =>
      obtain ⟨hanswer, hsame⟩ := sem_sql_fault (.claimNextPendingAction productId deviceId) hfault
      exact h.same (by rw [hanswer]; rfl) (by rw [hsame])
  | none =>
      cases hqueue : w.actionQueue productId deviceId with
      | nil =>
          obtain ⟨hanswer, hsame⟩ := status_claimEmpty hfault hqueue
          exact h.same (by rw [hanswer]; rfl) (by rw [hsame])
      | cons row rest =>
          have hrow : Matched demand past row := h.waiting row (by simp [hqueue])
          obtain ⟨hanswer, hrest, -, -⟩ := status_claimNext hfault hqueue
          have htables := (sem_sql_done (.claimNextPendingAction productId deviceId) hfault).2
          rw [World.actionQueue] at hqueue
          simp only [Sql.exec, hqueue] at htables
          refine ⟨h.leaves.update ?_ (congrArg Tables.actionInvocations htables) ?_, ?_⟩
          · intro found hfound
            rw [hanswer] at hfound
            obtain rfl : claimed w.tick.clock row = found := Option.some.inj hfound
            exact hrow
          · intro found hfound hid _
            have hin : row ∈ w.tables.actionInvocations.queue productId deviceId := by simp [hqueue]
            rw [← CommandTable.eq_of_mem_queue hin (beq_iff_eq.mp hid).symm hfound]
            exact hrow
          · intro other hother
            rw [hrest] at hother
            exact (h.waiting other
              (by rw [World.actionQueue, hqueue]; exact List.mem_cons_of_mem _ hother)).cons

theorem guarded_actionFailed {productId deviceId : String} (id : Int) (serviceType : String)
    (h : Guarded demand productId deviceId start past w) :
    Guarded demand productId deviceId start
      (⟨.sql (.updateActionInvocationStatus id productId deviceId serviceType .failed .sent),
        (sem (.sql (.updateActionInvocationStatus id productId deviceId serviceType .failed .sent))
          w).1⟩ :: past)
      (sem (.sql (.updateActionInvocationStatus id productId deviceId serviceType .failed .sent))
        w).2 := by
  cases hfault : w.sqlFaults 0 with
  | some error =>
      obtain ⟨-, hsame⟩ := sem_sql_fault
        (.updateActionInvocationStatus id productId deviceId serviceType .failed .sent) hfault
      exact h.same rfl (by rw [hsame])
  | none =>
      obtain ⟨-, htables⟩ := sem_sql_done
        (.updateActionInvocationStatus id productId deviceId serviceType .failed .sent) hfault
      refine ⟨h.leaves.update (by simp [claimedAction]) (congrArg Tables.actionInvocations htables)
        (by simp), ?_⟩
      intro row hrow
      rw [World.actionQueue, htables] at hrow
      simp only [Sql.exec, CommandTable.queue_update _ _ _ _ (show CommandStatus.sent ≠
        .pending by decide) (show CommandStatus.failed ≠ .pending by decide)] at hrow
      exact (h.waiting row hrow).cons

theorem guarded_step {productId deviceId : String} {op : Op} (hop : DrainOp productId deviceId op)
    (h : Guarded demand productId deviceId start past w) :
    Guarded demand productId deviceId start (⟨op, (sem op w).1⟩ :: past) (sem op w).2 := by
  cases hop with
  | publish request => exact h.same rfl rfl
  | claimAll =>
      refine h.same rfl ?_
      rw [sem_sql_tables]
      split_ifs <;> rfl
  | propertyFailed ids =>
      refine h.same rfl ?_
      rw [sem_sql_tables]
      split_ifs <;> rfl
  | claimNext => exact guarded_claimNext h
  | actionFailed id serviceType => exact guarded_actionFailed id serviceType h

theorem wp_guarded {productId deviceId : String} {α : Type} {program : M α}
    (huses : program.Uses (DrainOp productId deviceId))
    (h : Guarded demand productId deviceId start past w) :
    program.wp sem (fun _ => LeavesOnly demand start) past w := by
  refine Prog.wp_mono (huses.wp (Guarded demand productId deviceId start)
    (fun _ _ _ hop => guarded_step hop) h) ?_
  exact fun _ _ _ h => h.leaves

end Leaves

section Gate

variable {w : World} {past : List (Event Op.Ans)} {productId deviceId serviceType : String}

-- The reply holds subscriptions that meet the demand.
def ReplyMeets (demand : Demand) (reply : HttpReply (Option (List Subscription)))
    (productId deviceId serviceType : String) : Prop :=
  ∃ subscriptions, readSubscriptions reply = some subscriptions ∧
    demand subscriptions productId deviceId serviceType

-- One request to the broker, which changes nothing.
theorem wp_gate : (isSubscribedToServiceAction productId deviceId serviceType).wp sem
    (fun result past' w' => past' = ⟨.getSubscriptions deviceId, w.subscriptions 0⟩ :: past ∧
      w' = (sem (.getSubscriptions deviceId) w).2 ∧
      (result = .ok true ↔ ReplyMeets ownTopic (w.subscriptions 0) productId deviceId serviceType))
        past w := by
  have hanswer : (sem (.getSubscriptions deviceId) w).1 = w.subscriptions 0 := rfl
  simp only [isSubscribedToServiceAction, getSubscriptions, Prog.bind_eq, Prog.perform_bind,
    Prog.call_bind, Prog.wp_call, hanswer, ReplyMeets, ownTopic]
  cases w.subscriptions 0 with
  | failed error => simp [readSubscriptions]
  | response status body =>
      by_cases hstatus : 200 ≤ status ∧ status ≤ 299
      · cases body with
        | none => simp [readSubscriptions, hstatus]
        | some subscriptions => simp [readSubscriptions, hstatus]
      · simp [readSubscriptions, hstatus, subscribedTo]

theorem wp_gate_open {α : Type} {next : Except String Bool → M α} {post : α → List (Event Op.Ans) →
    World → Prop}
    (hopen : ReplyMeets ownTopic (w.subscriptions 0) productId deviceId serviceType)
    (h : (next (.ok true)).wp sem post (⟨.getSubscriptions deviceId, w.subscriptions 0⟩ :: past)
      (sem (.getSubscriptions deviceId) w).2) :
    ((isSubscribedToServiceAction productId deviceId serviceType).bind next).wp sem post
      past w := by
  apply Prog.wp_seq wp_gate
  rintro result past' w' ⟨rfl, rfl, hresult⟩
  rw [hresult.mpr hopen]
  exact h

-- A gate that drains the device when it is open, and does nothing otherwise.
theorem wp_gate_leaves {demand : Demand} {start : World} {α : Type}
    {next : Except String Bool → M α} (h : LeavesOnly demand start past w)
    (hmeets : ReplyMeets ownTopic (w.subscriptions 0) productId deviceId serviceType →
      ∀ row ∈ w.actionQueue productId deviceId,
        ReplyMeets demand (w.subscriptions 0) productId deviceId row.body.serviceType)
    (hdrain : (next (.ok true)).Uses (DrainOp productId deviceId))
    (hfalse : (next (.ok false)).isDone = true)
    (herror : ∀ error, (next (.error error)).isDone = true) :
    ((isSubscribedToServiceAction productId deviceId serviceType).bind next).wp sem
      (fun _ => LeavesOnly demand start) past w := by
  by_cases hopen : ReplyMeets ownTopic (w.subscriptions 0) productId deviceId serviceType
  · apply wp_gate_open hopen
    refine wp_guarded hdrain ⟨h.same rfl rfl, ?_⟩
    intro row hrow
    obtain ⟨-, rfl, rfl, -⟩ := (CommandTable.mem_queue _ _ _ _).mp hrow
    obtain ⟨subscriptions, hread, hmatch⟩ := hmeets hopen row hrow
    exact ⟨_, List.mem_cons_self, subscriptions, hread, hmatch⟩
  · apply Prog.wp_seq wp_gate
    rintro result past' w' ⟨rfl, rfl, hresult⟩
    have hclosed : (next result).isDone = true := by
      cases result with
      | error error => exact herror error
      | ok answer =>
          cases answer with
          | false => exact hfalse
          | true => exact absurd (hresult.mp rfl) hopen
    obtain ⟨value, hvalue⟩ := Prog.eq_ret_of_isDone hclosed
    rw [hvalue]
    exact h.same rfl rfl

end Gate

section Drainers

variable {w : World}

@[simp] theorem sem_sql_subscriptions (stmt : Sql) (w : World) :
    (sem (.sql stmt) w).2.subscriptions = w.subscriptions := by
  simp only [sem, Op.exec]
  cases w.tick.sqlFaults 0 <;> rfl

-- What the gate of a request lets leave meets the demand.
def Drainer.Meets (drainer : Drainer) (demand : Demand) (w : World) : Prop :=
  ∀ productId deviceId serviceType, drainer.gate = some (productId, deviceId, serviceType) →
    ReplyMeets ownTopic (w.subscriptions 0) productId deviceId serviceType →
    ReplyMeets demand (w.subscriptions 0) productId deviceId serviceType ∧
      ∀ row ∈ w.actionQueue productId deviceId,
      ReplyMeets demand (w.subscriptions 0) productId deviceId row.body.serviceType

section Leaves

variable {demand : Demand} (config : MqttConfig) (fuel : Nat)

-- The row that the request has just created leaves with the others.
theorem wp_leaves_create (req : CreateActionCommandRequest)
    (hmeets : (Drainer.createServiceCommand req).Meets demand w) :
    (serve config fuel (Drainer.createServiceCommand req).request).wp sem
      (fun _ => LeavesOnly demand w) [] w := by
  simp only [Drainer.request, serve, createServiceCommand]
  cases hdevice : validateDevice req.productId req.deviceId with
  | error error => exact leavesOnly_start
  | ok _ =>
      cases htype : validateServiceType req.serviceType with
      | error error => exact leavesOnly_start
      | ok _ =>
          simp only [query, Prog.bind_eq, Prog.perform_bind, Prog.wp_call]
          cases hfault : w.sqlFaults 0 with
          | some error =>
              obtain ⟨hanswer, hsame⟩ :=
                sem_sql_fault (.insertActionInvocation req.productId req.deviceId
                req.serviceType (if req.params.isNull then JsonMap.empty.toJson else req.params))
                  hfault
              rw [hanswer]
              exact leavesOnly_start.same rfl (by rw [hsame])
          | none =>
              obtain ⟨hanswer, hdone⟩ :=
                sem_sql_done (.insertActionInvocation req.productId req.deviceId
                req.serviceType (if req.params.isNull then JsonMap.empty.toJson else req.params))
                  hfault
              have hinserted := congrArg Tables.actionInvocations hdone
              rw [hanswer]
              refine wp_gate_leaves (leavesOnly_start.insert rfl hinserted) ?_ ?_ rfl fun _ => rfl
              · intro hopen row hrow
                rw [sem_sql_subscriptions] at hopen ⊢
                rw [World.actionQueue, hinserted] at hrow
                rcases CommandTable.mem_queue_insert.mp hrow with hold | rfl
                · exact (hmeets _ _ _ (by simp [Drainer.gate, hdevice, htype]) hopen).2 row hold
                · exact (hmeets _ _ _ (by simp [Drainer.gate, hdevice, htype]) hopen).1
              · apply Prog.Uses.bind (uses_sendActions fuel)
                intro drained
                cases drained with
                | none => trivial
                | some result => cases result <;> trivial

theorem wp_leaves_subscribe (msg : RMqttSubscribeMessage)
    (hmeets : (Drainer.serviceSetSubscribe msg).Meets demand w) :
    (serve config fuel (Drainer.serviceSetSubscribe msg).request).wp sem
      (fun _ => LeavesOnly demand w) [] w := by
  simp only [Drainer.request, serve, serviceSetSubscribe]
  cases hmsg : validateSubscribe msg with
  | error error => exact leavesOnly_start
  | ok _ =>
      refine wp_gate_leaves leavesOnly_start
        (fun hopen => (hmeets _ _ _ (by simp [Drainer.gate, hmsg]) hopen).2) ?_ rfl fun _ => rfl
      apply Prog.Uses.bind uses_sendProperty
      intro sent
      cases sent with
      | error _ => trivial
      | ok _ =>
          apply Prog.Uses.bind (uses_sendActions fuel)
          intro drained
          cases drained with
          | none => trivial
          | some result => cases result <;> trivial

theorem wp_leaves_connect (req : DeviceConnectRequest)
    (hmeets : (Drainer.deviceConnect req).Meets demand w) :
    (serve config fuel (Drainer.deviceConnect req).request).wp sem (fun _ => LeavesOnly demand w)
      [] w := by
  simp only [Drainer.request, serve, deviceConnect]
  cases hidentity : resolveDeviceIdentity req with
  | error error => exact leavesOnly_start
  | ok identity =>
      simp only [query, Prog.bind_eq, Prog.perform_bind, Prog.wp_call]
      have hsame : (sem (.sql (.upsertDeviceStatusConnect identity.1 identity.2)) w).2.tables =
          w.tables := by
        rw [sem_sql_tables]
        split_ifs <;> rfl
      cases (sem (.sql (.upsertDeviceStatusConnect identity.1 identity.2)) w).1 with
      | error error => exact leavesOnly_start.same rfl (by rw [hsame])
      | ok _ =>
          refine wp_gate_leaves (leavesOnly_start.same rfl (by rw [hsame])) ?_ ?_ rfl fun _ => rfl
          · intro hopen row hrow
            rw [sem_sql_subscriptions] at hopen ⊢
            rw [World.actionQueue, hsame] at hrow
            exact (hmeets _ _ _ (by simp [Drainer.gate, hidentity]) hopen).2 row hrow
          · apply Prog.Uses.bind uses_sendProperty
            intro _
            apply Prog.Uses.bind (uses_sendActions fuel)
            intro drained
            cases drained <;> trivial

-- An open gate lets everything that waits for the device leave.
theorem wp_leaves (drainer : Drainer) (hmeets : drainer.Meets demand w) :
    (serve config fuel drainer.request).wp sem (fun _ => LeavesOnly demand w) [] w := by
  cases drainer with
  | createServiceCommand req => exact wp_leaves_create config fuel req hmeets
  | serviceSetSubscribe msg => exact wp_leaves_subscribe config fuel msg hmeets
  | deviceConnect req => exact wp_leaves_connect config fuel req hmeets

end Leaves

theorem leavesOnly_serve {demand : Demand} (config : MqttConfig) (fuel : Nat) (drainer : Drainer)
    (hmeets : drainer.Meets demand w) :
    LeavesOnly demand w ((serve config fuel drainer.request).trace sem w)
      ((serve config fuel drainer.request).final sem w) := by
  have hrun := (Prog.wp_iff _ _ _).mp (wp_leaves config fuel drainer hmeets)
  rw [List.append_nil] at hrun
  exact hrun

end Drainers

section Calm

variable {config : MqttConfig} {productId deviceId : String} {w : World}
  {past : List (Event Op.Ans)}

-- No statement fails, and the broker accepts every message.
structure Calm (w : World) : Prop where
  done : ∀ n, w.sqlFaults n = none
  accepts : ∀ n, (w.publishes n).isSuccess = true

theorem Calm.sem (h : Calm w) (op : Op) : Calm (sem op w).2 := by
  cases op with
  | sql stmt =>
      refine ⟨?_, ?_⟩
      · rw [sem_sql_sqlFaults]
        exact fun n => h.done (n + 1)
      · rw [sem_sql_publishes]
        exact h.accepts
  | postPublish request => exact ⟨h.done, fun n => h.accepts (n + 1)⟩
  | getSubscriptions clientId => exact ⟨h.done, h.accepts⟩

-- The first attempt is the last.
theorem wp_publishCommand_calm (request : PublishRequest) (h : Calm w) :
    (publishCommand config request).wp sem
      (fun result past' w' => result = .ok () ∧ Calm w' ∧ w'.tables = w.tables ∧ past <:+ past')
        past w := by
  have hok : (Commands.sem (.postPublish request) w).1.isSuccess = true := h.accepts 0
  simp only [publishCommand, publishAttempts_succ, Prog.bind_eq, Prog.call_bind, Prog.wp_call,
    hok, if_true]
  exact ⟨rfl, h.sem _, rfl, List.suffix_cons _ _⟩

theorem wp_publishProperties_calm (rows : List (CommandRow PropertyCommand)) (h : Calm w) :
    (publishProperties config productId deviceId rows).wp sem
      (fun result past' w' => result = .ok () ∧ Calm w' ∧ w'.tables = w.tables ∧ past <:+ past')
        past w := by
  induction rows generalizing w past with
  | nil => exact ⟨rfl, h, rfl, List.suffix_rfl⟩
  | cons row rows ih =>
      unfold publishProperties
      apply Prog.wp_seq (wp_publishCommand_calm _ h)
      rintro _ past₁ w₁ ⟨rfl, hcalm, htables, hpast⟩
      refine Prog.wp_mono (ih hcalm) ?_
      rintro _ past₂ w₂ ⟨rfl, hcalm, htables₂, hpast₂⟩
      exact ⟨rfl, hcalm, htables₂.trans htables, hpast.trans hpast₂⟩

theorem wp_sendProperty_calm (h : Calm w) :
    (sendPropertyCommandToDevice config productId deviceId).wp sem
      (fun result past' w' => result = .ok () ∧ Calm w' ∧
        w'.tables.actionInvocations = w.tables.actionInvocations ∧ past <:+ past') past w := by
  simp only [sendPropertyCommandToDevice, query, Prog.bind_eq, Prog.perform_bind, Prog.wp_call]
  obtain ⟨hanswer, htables⟩ :=
    sem_sql_done (.updatePendingCommandsToSent productId deviceId) (h.done 0)
  rw [hanswer]
  refine Prog.wp_mono (wp_publishProperties_calm _ (h.sem _)) ?_
  rintro _ past' w' ⟨rfl, hcalm, hsame, hpast⟩
  refine ⟨rfl, hcalm, ?_, (List.suffix_cons _ _).trans hpast⟩
  rw [hsame, htables]
  rfl

theorem wp_publishAction_calm (row : CommandRow ActionInvocation) (h : Calm w) :
    (publishAction config productId deviceId row).wp sem
      (fun _ past' w' => Calm w' ∧ w'.tables = w.tables ∧ past <:+ past') past w := by
  apply Prog.wp_seq (wp_publishCommand_calm _ h)
  rintro _ past₁ w₁ ⟨rfl, hcalm, htables, hpast⟩
  exact ⟨hcalm, htables, hpast⟩

-- Every one of the rows has been flipped to Sent.
def AllClaimed (rows : List (CommandRow ActionInvocation)) (events : List (Event Op.Ans)) : Prop :=
  ∀ row ∈ rows, ∃ event ∈ events, ∃ now, claimedAction event = some (claimed now row)

theorem wp_sendActions_calm (fuel : Nat) (h : Calm w)
    (hfuel : (w.actionQueue productId deviceId).length < fuel) :
    (sendActionInvocationsToDevice config productId deviceId fuel).wp sem
      (fun _ past' _ => past <:+ past' ∧ AllClaimed (w.actionQueue productId deviceId) past')
        past w := by
  induction fuel generalizing w past with
  | zero => omega
  | succ fuel ih =>
      simp only [sendActionInvocationsToDevice, query, Prog.bind_eq, Prog.perform_bind,
        Prog.wp_call]
      cases hqueue : w.actionQueue productId deviceId with
      | nil =>
          rw [(status_claimEmpty (h.done 0) hqueue).1]
          exact ⟨List.suffix_cons _ _, by simp [AllClaimed]⟩
      | cons row rest =>
          obtain ⟨hanswer, hrest, -, -⟩ := status_claimNext (h.done 0) hqueue
          rw [hqueue, List.length_cons] at hfuel
          rw [hanswer]
          apply Prog.wp_seq (wp_publishAction_calm _ (h.sem _))
          rintro _ past₁ w₁ ⟨hcalm, htables, hpast⟩
          have hqueue₁ : w₁.actionQueue productId deviceId = rest := by
            rw [World.actionQueue, htables]
            exact hrest
          refine Prog.wp_mono (ih hcalm (by rw [hqueue₁]; omega)) ?_
          rintro _ past₂ w₂ ⟨hpast₂, hall⟩
          rw [hqueue₁] at hall
          have hsuffix := hpast.trans hpast₂
          refine ⟨(List.suffix_cons _ _).trans hsuffix, ?_⟩
          intro other hother
          rcases List.mem_cons.mp hother with rfl | hother
          · exact ⟨_, hsuffix.subset List.mem_cons_self, w.tick.clock, rfl⟩
          · exact hall other hother

section CalmCalls

variable (config : MqttConfig) {serviceType : String} {fuel : Nat}

theorem wp_calm_create (req : CreateActionCommandRequest) (h : Calm w)
    (hgate : (Drainer.createServiceCommand req).gate = some (productId, deviceId, serviceType))
    (hopen : ReplyMeets ownTopic (w.subscriptions 0) productId deviceId serviceType)
    (hfuel : w.tables.actionInvocations.rows.length + 1 < fuel) :
    (serve config fuel (Drainer.createServiceCommand req).request).wp sem
      (fun _ past' _ => AllClaimed (w.actionQueue productId deviceId) past') [] w := by
  simp only [Drainer.request, serve, createServiceCommand]
  cases hdevice : validateDevice req.productId req.deviceId with
  | error error => simp [Drainer.gate, hdevice] at hgate
  | ok _ =>
      cases htype : validateServiceType req.serviceType with
      | error error => simp [Drainer.gate, hdevice, htype] at hgate
      | ok _ =>
          simp only [Drainer.gate, hdevice, htype, Option.some.injEq, Prod.mk.injEq] at hgate
          obtain ⟨rfl, rfl, rfl⟩ := hgate
          simp only [query, Prog.bind_eq, Prog.perform_bind, Prog.wp_call]
          obtain ⟨hanswer, hdone⟩ :=
            sem_sql_done (.insertActionInvocation req.productId req.deviceId
            req.serviceType (if req.params.isNull then JsonMap.empty.toJson else req.params))
              (h.done 0)
          have hinserted := congrArg Tables.actionInvocations hdone
          rw [hanswer]
          apply wp_gate_open (by rwa [sem_sql_subscriptions])
          refine Prog.wp_seq (wp_sendActions_calm fuel ((h.sem _).sem _) ?_) ?_
          · apply lt_of_le_of_lt (CommandTable.queue_length_le _ _ _)
            rw [sem_getSubscriptions_tables, hinserted]
            simpa [Sql.exec, CommandTable.insert] using hfuel
          · rintro drained past' w' ⟨-, hall⟩
            have hclaimed : AllClaimed (w.actionQueue req.productId req.deviceId) past' := by
              intro row hrow
              apply hall row
              rw [World.actionQueue, sem_getSubscriptions_tables, hinserted]
              exact CommandTable.mem_queue_insert.mpr (.inl hrow)
            cases drained with
            | none => exact hclaimed
            | some result => cases result <;> exact hclaimed

theorem wp_calm_subscribe (msg : RMqttSubscribeMessage) (h : Calm w)
    (hgate : (Drainer.serviceSetSubscribe msg).gate = some (productId, deviceId, serviceType))
    (hopen : ReplyMeets ownTopic (w.subscriptions 0) productId deviceId serviceType)
    (hfuel : w.tables.actionInvocations.rows.length + 1 < fuel) :
    (serve config fuel (Drainer.serviceSetSubscribe msg).request).wp sem
      (fun _ past' _ => AllClaimed (w.actionQueue productId deviceId) past') [] w := by
  simp only [Drainer.request, serve, serviceSetSubscribe]
  cases hmsg : validateSubscribe msg with
  | error error => simp [Drainer.gate, hmsg] at hgate
  | ok _ =>
      simp only [Drainer.gate, hmsg, Option.some.injEq, Prod.mk.injEq] at hgate
      obtain ⟨rfl, rfl, rfl⟩ := hgate
      apply wp_gate_open hopen
      apply Prog.wp_seq (wp_sendProperty_calm (h.sem _))
      rintro _ past₁ w₁ ⟨rfl, hcalm, hsame, -⟩
      have hqueue : w₁.actionQueue (msg.username.getD "") msg.clientId =
          w.actionQueue (msg.username.getD "") msg.clientId := by
        rw [World.actionQueue, hsame]
        rfl
      refine Prog.wp_seq (wp_sendActions_calm fuel hcalm ?_) ?_
      · rw [hqueue]
        exact lt_of_le_of_lt (CommandTable.queue_length_le _ _ _) (by omega)
      · rintro drained past' w' ⟨-, hall⟩
        rw [hqueue] at hall
        cases drained with
        | none => exact hall
        | some result => cases result <;> exact hall

theorem wp_calm_connect (req : DeviceConnectRequest) (h : Calm w)
    (hgate : (Drainer.deviceConnect req).gate = some (productId, deviceId, serviceType))
    (hopen : ReplyMeets ownTopic (w.subscriptions 0) productId deviceId serviceType)
    (hfuel : w.tables.actionInvocations.rows.length + 1 < fuel) :
    (serve config fuel (Drainer.deviceConnect req).request).wp sem
      (fun _ past' _ => AllClaimed (w.actionQueue productId deviceId) past') [] w := by
  simp only [Drainer.request, serve, deviceConnect]
  cases hidentity : resolveDeviceIdentity req with
  | error error => simp [Drainer.gate, hidentity] at hgate
  | ok identity =>
      simp only [Drainer.gate, hidentity, Option.some.injEq, Prod.mk.injEq] at hgate
      obtain ⟨rfl, rfl, rfl⟩ := hgate
      simp only [query, Prog.bind_eq, Prog.perform_bind, Prog.wp_call]
      obtain ⟨hanswer, hdone⟩ :=
        sem_sql_done (.upsertDeviceStatusConnect identity.1 identity.2) (h.done 0)
      rw [hanswer]
      apply wp_gate_open (by rwa [sem_sql_subscriptions])
      apply Prog.wp_seq (wp_sendProperty_calm ((h.sem _).sem _))
      rintro _ past₁ w₁ ⟨rfl, hcalm, hsame, -⟩
      have hqueue : w₁.actionQueue identity.1 identity.2 = w.actionQueue identity.1 identity.2 := by
        rw [World.actionQueue, hsame, sem_getSubscriptions_tables, hdone]
        rfl
      refine Prog.wp_seq (wp_sendActions_calm fuel hcalm ?_) ?_
      · rw [hqueue]
        exact lt_of_le_of_lt (CommandTable.queue_length_le _ _ _) (by omega)
      · rintro drained past' w' ⟨-, hall⟩
        rw [hqueue] at hall
        cases drained <;> exact hall

-- With an open gate, a calm call claims everything that waits for its device.
theorem wp_calm (drainer : Drainer) (h : Calm w)
    (hgate : drainer.gate = some (productId, deviceId, serviceType))
    (hopen : ReplyMeets ownTopic (w.subscriptions 0) productId deviceId serviceType)
    (hfuel : w.tables.actionInvocations.rows.length + 1 < fuel) :
    (serve config fuel drainer.request).wp sem
      (fun _ past' _ => AllClaimed (w.actionQueue productId deviceId) past') [] w := by
  cases drainer with
  | createServiceCommand req => exact wp_calm_create config req h hgate hopen hfuel
  | serviceSetSubscribe msg => exact wp_calm_subscribe config msg h hgate hopen hfuel
  | deviceConnect req => exact wp_calm_connect config req h hgate hopen hfuel

end CalmCalls

-- Every read of subscriptions got what is in the reply.
def Reads (reply : HttpReply (Option (List Subscription))) (events : List (Event Op.Ans)) : Prop :=
  ∀ event ∈ events, ∀ subscriptions, gateRead event = some subscriptions →
    readSubscriptions reply = some subscriptions

-- A broker that gives the same reply every time.
theorem reads_of_constant {reply : HttpReply (Option (List Subscription))} {α : Type}
    (program : M α) (h : ∀ n, w.subscriptions n = reply) : Reads reply (program.trace sem w) := by
  have hrun : program.wp sem (fun _ past w => (∀ n, w.subscriptions n = reply) ∧ Reads reply past)
      [] w := by
    refine (Prog.uses_true program).wp _ ?_ ⟨h, by simp [Reads]⟩
    rintro op past w - ⟨hsame, hpast⟩
    constructor
    · cases op with
      | sql stmt => simpa using hsame
      | postPublish request => exact hsame
      | getSubscriptions clientId => exact fun n => hsame (n + 1)
    · intro event hevent subscriptions hread
      rcases List.mem_cons.mp hevent with rfl | hevent
      · cases op with
        | sql stmt => cases hread
        | postPublish request => cases hread
        | getSubscriptions clientId => exact (congrArg readSubscriptions (hsame 0)).symm.trans hread
      · exact hpast event hevent subscriptions hread
  rw [Prog.wp_iff, List.append_nil] at hrun
  exact hrun.2

end Calm

-- What leaves the queue does so through a gate that has read a subscription to its own
-- topic: for every request, database, broker and choice of failing statements. The
-- subscriptions match what leaves, in every such run, exactly when those that open the
-- gate match everything that waits for the device.
theorem invocations_leave_through_gate (config : MqttConfig) (drainer : Drainer) :
    (∀ fuel w, LeavesOnly (gateTopic drainer) w ((serve config fuel drainer.request).trace sem w)
      ((serve config fuel drainer.request).final sem w)) ∧
    ∀ tables reply, (∀ fuel w, w.tables = tables → w.subscriptions 0 = reply →
        LeavesOnly ownTopic w ((serve config fuel drainer.request).trace sem w)
          ((serve config fuel drainer.request).final sem w)) ↔
      ∀ productId deviceId serviceType, drainer.gate = some (productId, deviceId, serviceType) →
        ReplyMeets ownTopic reply productId deviceId serviceType →
        ∀ row ∈ tables.actionInvocations.queue productId deviceId,
          ReplyMeets ownTopic reply productId deviceId row.body.serviceType := by
  refine ⟨?_, fun tables reply => ⟨?_, ?_⟩⟩
  · intro fuel w
    apply leavesOnly_serve
    rintro productId deviceId serviceType hgate ⟨subscriptions, hread, hopen⟩
    exact ⟨⟨subscriptions, hread, serviceType, hgate, hopen⟩, fun row _ =>
      ⟨subscriptions, hread, serviceType, hgate, hopen⟩⟩
  · intro h productId deviceId serviceType hgate hopen row hrow
    let w : World := { World.started tables with subscriptions := fun _ => reply }
    have hcalm : Calm w := ⟨fun _ => rfl, fun _ => rfl⟩
    have hall := (Prog.wp_iff _ _ _).mp (wp_calm config drainer hcalm hgate hopen
        (Nat.lt_succ_self _))
    rw [List.append_nil] at hall
    obtain ⟨event, hevent, now, hclaim⟩ := hall row hrow
    obtain ⟨read, hmem, subscriptions, hread, hmatch⟩ :=
      (h _ w rfl rfl).claims event hevent _ hclaim
    obtain ⟨-, rfl, rfl, -⟩ := (CommandTable.mem_queue _ _ _ _).mp hrow
    exact ⟨subscriptions, reads_of_constant _ (fun _ => rfl) read hmem subscriptions hread, hmatch⟩
  · rintro h fuel w rfl rfl
    apply leavesOnly_serve
    exact fun productId deviceId serviceType hgate hopen =>
      ⟨hopen, h productId deviceId serviceType hgate hopen⟩

section Example

instance (events : List (Event Op.Ans)) (row : CommandRow ActionInvocation) :
    Decidable (Matched ownTopic events row) :=
  decidable_of_iff (∃ event ∈ events, ((gateRead event).any fun subscriptions =>
    subscribedTo subscriptions row.productId row.deviceId row.body.serviceType) = true) (by
      simp only [Matched, ownTopic, Option.any_eq_true])

def locate : CommandRow ActionInvocation where
  id := 1
  productId := "p"
  deviceId := "d"
  status := .pending
  createdTime := 0
  updatedTime := 0
  body := ⟨"locate", .null⟩

-- `locate` is waiting for a device that has subscribed to one other service.
def locateWaiting (serviceType : String) : World :=
  { World.started { Tables.empty with
      actionInvocations := CommandTable.empty.insert "p" "d" ⟨"locate", .null⟩ 0 } with
    subscriptions := fun _ => .response 200 (some [⟨serviceActionTopic "p" "d" serviceType⟩]) }

-- Whether `locate` is kept by a request that finds the one subscription.
def KeepsLocate (drainer : Drainer) (serviceType : String) : Prop :=
  LeavesOnly ownTopic (locateWaiting serviceType)
    ((serve testConfig 3 drainer.request).trace sem (locateWaiting serviceType))
    ((serve testConfig 3 drainer.request).final sem (locateWaiting serviceType))

theorem not_keepsLocate {drainer : Drainer} {serviceType : String}
    (hmatched : ¬Matched ownTopic ((serve testConfig 3 drainer.request).trace sem
      (locateWaiting serviceType)) locate)
    (hstatus : ((serve testConfig 3 drainer.request).final sem (locateWaiting serviceType)).status
      .action locate.id =
      some .sent) : ¬KeepsLocate drainer serviceType := by
  intro h
  rw [World.status, h.kept locate rfl rfl hmatched] at hstatus
  cases hstatus

-- Each of the three requests asks about its own topic, and drains everything.
theorem unsubscribed_invocation_leaves :
    ¬KeepsLocate (.createServiceCommand ⟨"p", "d", "reboot", .null⟩) "reboot" ∧
    ¬KeepsLocate (.serviceSetSubscribe ⟨"d", none, some "p"⟩) "property" ∧
    ¬KeepsLocate (.deviceConnect ⟨none, "p", "d", none⟩) "property" := by
  refine ⟨not_keepsLocate ?_ ?_, not_keepsLocate ?_ ?_, not_keepsLocate ?_ ?_⟩ <;> decide +kernel

end Example

end RmqttThings.Commands
