import RmqttThings.Commands.OfflineShadow

namespace RmqttThings.Commands

open Effects Shadow

-- The two statements by which Set-Desired writes.
def Op.ofShadow : Op → Bool
  | .sql (.upsertPropertyDesired _ _ _) => true
  | .sql (.insertPropertyCommand _ _ _ source) => source == .desiredDelta
  | _ => false

-- A request merges first. It enqueues the delta of its own merge against the snapshot that
-- it has read, and only when that delta is not empty.
def ShadowRule (past : List (Event Op.Ans)) : Op → Prop
  | .sql (.upsertPropertyDesired _ _ _) => past = []
  | .sql (.insertPropertyCommand productId deviceId command .desiredDelta) => ∃ patch merged row,
      past = [⟨.sql (.getPropertyLatestOne productId deviceId), .ok row⟩,
        ⟨.sql (.upsertPropertyDesired productId deviceId patch), .ok merged⟩] ∧
      command = (computeDelta (objectOrDefault merged.desired) (reportedMap row)).toJson ∧
      (computeDelta (objectOrDefault merged.desired) (reportedMap row)).isEmpty = false
  | _ => True

section Footprint

variable {config : MqttConfig} {productId deviceId serviceType : String}

def Plain (op : Op) : Prop := op.ofShadow = false

theorem plain_of_drainOp {op : Op} (h : DrainOp productId deviceId op) : Plain op := by
  cases h <;> rfl

theorem plain_isSubscribed :
    (isSubscribedToServiceAction productId deviceId serviceType).Uses Plain := by
  obtain ⟨answer, heq⟩ := isSubscribedToServiceAction_eq productId deviceId serviceType
  rw [heq]
  exact ⟨rfl, fun _ => trivial⟩

theorem plain_sendProperty : (sendPropertyCommandToDevice config productId deviceId).Uses Plain :=
  uses_sendProperty.mono fun _ => plain_of_drainOp

theorem plain_sendActions (fuel : Nat) :
    (sendActionInvocationsToDevice config productId deviceId fuel).Uses Plain :=
  (uses_sendActions fuel).mono fun _ => plain_of_drainOp

theorem plain_deliverProperties : (deliverProperties config productId deviceId).Uses Plain := by
  apply Prog.Uses.bind plain_isSubscribed
  intro subscribed
  split
  · apply Prog.Uses.bind plain_sendProperty
    exact fun _ => trivial
  · trivial

theorem plain_serviceSetReply (msg : RMqttPublishMessage) : (serviceSetReply msg).Uses Plain := by
  unfold serviceSetReply
  split
  · trivial
  · split_ifs
    · refine ⟨rfl, ?_⟩
      intro answer
      cases answer <;> trivial
    · refine ⟨rfl, ?_⟩
      intro answer
      cases answer <;> trivial
    · trivial

theorem plain_serviceSetSubscribe (fuel : Nat) (msg : RMqttSubscribeMessage) :
    (serviceSetSubscribe config fuel msg).Uses Plain := by
  unfold serviceSetSubscribe
  split
  · trivial
  · apply Prog.Uses.bind plain_isSubscribed
    intro subscribed
    split
    · apply Prog.Uses.bind plain_sendProperty
      intro sent
      split
      · trivial
      · apply Prog.Uses.bind (plain_sendActions fuel)
        intro drained
        split <;> trivial
    · trivial

theorem plain_deviceConnect (fuel : Nat) (req : DeviceConnectRequest) :
    (deviceConnect config fuel req).Uses Plain := by
  unfold deviceConnect
  split
  · trivial
  · refine ⟨rfl, ?_⟩
    intro answer
    cases answer with
    | error _ => trivial
    | ok _ =>
        apply Prog.Uses.bind plain_isSubscribed
        intro subscribed
        split
        · apply Prog.Uses.bind plain_sendProperty
          intro _
          apply Prog.Uses.bind (plain_sendActions fuel)
          intro drained
          split <;> trivial
        · trivial

theorem plain_createPropertyCommand (req : CreatePropertyCommandRequest) :
    (createPropertyCommand config req).Uses Plain := by
  unfold createPropertyCommand
  split
  · trivial
  · split_ifs
    · trivial
    · refine ⟨rfl, ?_⟩
      intro answer
      cases answer with
      | error _ => trivial
      | ok _ =>
          apply Prog.Uses.bind plain_deliverProperties
          exact fun _ => trivial

theorem plain_createServiceCommand (fuel : Nat) (req : CreateActionCommandRequest) :
    (createServiceCommand config fuel req).Uses Plain := by
  unfold createServiceCommand
  split
  · trivial
  · split
    · trivial
    · refine ⟨rfl, ?_⟩
      intro answer
      cases answer with
      | error _ => trivial
      | ok id =>
          apply Prog.Uses.bind plain_isSubscribed
          intro subscribed
          split
          · apply Prog.Uses.bind (plain_sendActions fuel)
            intro drained
            split <;> trivial
          · trivial

theorem plain_deleteRows (stmt : Sql) (h : Plain (.sql stmt)) : (deleteRows stmt).Uses Plain := by
  refine ⟨h, ?_⟩
  intro answer
  cases answer <;> trivial

theorem shadowRule_of_plain {op : Op} (h : Plain op) (past : List (Event Op.Ans)) :
    ShadowRule past op := by
  unfold ShadowRule
  split
  · cases h
  · cases h
  · trivial

theorem Plain.spec {α : Type} {program : M α} (h : program.Uses Plain)
    (past : List (Event Op.Ans)) :
    Prog.Spec ShadowRule (fun _ _ => True) program past :=
  Prog.Uses.spec h (fun _ => True) (fun _ past hop _ => shadowRule_of_plain hop past)
    (fun _ _ _ _ _ => trivial) trivial

theorem shadow_setPropertyDesired (req : SetDesiredRequest) :
    Prog.Spec ShadowRule (fun _ _ => True) (setPropertyDesired config req) [] := by
  unfold setPropertyDesired
  split
  · trivial
  · split_ifs
    · trivial
    · refine ⟨rfl, ?_⟩
      intro answer
      cases answer with
      | error _ => trivial
      | ok merged =>
          refine ⟨trivial, ?_⟩
          intro answer
          cases answer with
          | error _ => trivial
          | ok row =>
              dsimp only [Prog.ret_bind]
              split_ifs with hempty
              · trivial
              · refine ⟨⟨req.desired, merged, row, rfl, rfl, by simpa using hempty⟩, ?_⟩
                intro answer
                cases answer with
                | error _ => trivial
                | ok _ =>
                    apply Plain.spec
                    apply Prog.Uses.bind plain_deliverProperties
                    exact fun _ => trivial

theorem shadow_serve (config : MqttConfig) (fuel : Nat) (request : Request) :
    Prog.Spec ShadowRule (fun _ _ => True) (serve config fuel request) [] := by
  cases request with
  | setPropertyDesired req => exact (shadow_setPropertyDesired req).seq fun _ _ _ => trivial
  | serviceSetReply msg =>
      exact (Plain.spec (plain_serviceSetReply msg) []).seq fun _ _ _ => trivial
  | serviceSetSubscribe msg => exact Plain.spec (plain_serviceSetSubscribe fuel msg) []
  | deviceConnect req => exact Plain.spec (plain_deviceConnect fuel req) []
  | createPropertyCommand req =>
      exact (Plain.spec (plain_createPropertyCommand req) []).seq fun _ _ _ => trivial
  | createServiceCommand req => exact Plain.spec (plain_createServiceCommand fuel req) []
  | deletePropertyCommands ids =>
      exact (Plain.spec (plain_deleteRows (.deletePropertyCommands ids) rfl) []).seq fun _ _ _ =>
        trivial
  | deleteServiceCommands ids =>
      exact (Plain.spec (plain_deleteRows (.deleteActionInvocations ids) rfl) []).seq fun _ _ _ =>
        trivial

end Footprint

-- The merge of a request, after `time` operations of the run.
def MergedAt (productId deviceId : String) (log : List (Nat × Event Op.Ans)) (thread : Nat)
    (merged : PropertyDesired) (time : Nat) : Prop :=
  ∃ later patch earlier, log =
    later ++ (thread, ⟨.sql (.upsertPropertyDesired productId deviceId patch), .ok merged⟩) ::
      earlier ∧
    earlier.length = time

-- The command that a request has enqueued.
def Enqueued (productId deviceId : String) (log : List (Nat × Event Op.Ans)) (thread : Nat)
    (command : Json) (id : Int) : Prop :=
  (thread, ⟨.sql (.insertPropertyCommand productId deviceId command .desiredDelta), .ok id⟩) ∈ log

-- The rows of two requests that have both enqueued a delta stand in the order of their
-- merges, and a device that applies such rows in queue order ends, for every key, with
-- the value of the last merge among those that it was sent.
structure FollowsMerges (productId deviceId : String) (start : World)
    (log : List (Nat × Event Op.Ans)) : Prop where
  order : ∀ first second merged merged' time time' command command' id id',
    MergedAt productId deviceId log first merged time →
      MergedAt productId deviceId log second merged' time' →
    time < time' → Enqueued productId deviceId log first command id →
    Enqueued productId deviceId log second command' id' →
    ∃ a b, rowAfter start .property id log = some a ∧ rowAfter start .property id' log = some b ∧
      a.Before b
  lastWrite : ∀ rows : List (CommandRow PropertyCommand), rows.Pairwise CommandRow.LE →
    (rows.map (·.id)).Nodup → (∀ row ∈ rows, rowAfter start .property row.id log = some row) →
    ∀ last ∈ rows, ∀ thread merged time command,
      MergedAt productId deviceId log thread merged time →
    Enqueued productId deviceId log thread command last.id →
      ∀ key, (objectOrDefault command).get key ≠ none →
    (∀ row ∈ rows, row ≠ last → (objectOrDefault row.body.command).get key ≠ none →
      ∃ other merged' time' command', MergedAt productId deviceId log other merged' time' ∧
        Enqueued productId deviceId log other command' row.id ∧ time' < time) →
    (applied (rows.map (objectOrDefault ·.body.command))).get key =
      (objectOrDefault merged.desired).get key

-- The request has merged, and may still enqueue: it has not read the snapshot yet, or the
-- delta is not empty.
def Unqueued (productId deviceId : String) (past : List (Event Op.Ans)) : Prop :=
  ∃ patch merged, past = [⟨.sql (.upsertPropertyDesired productId deviceId patch), .ok merged⟩] ∨
    ∃ row, past = [⟨.sql (.getPropertyLatestOne productId deviceId), .ok row⟩,
        ⟨.sql (.upsertPropertyDesired productId deviceId patch), .ok merged⟩] ∧
      (computeDelta (objectOrDefault merged.desired) (reportedMap row)).isEmpty = false

-- No request merges while another one of the device is between its merge and its enqueue.
def SerialMerges (productId deviceId : String) (log : List (Nat × Event Op.Ans)) : Prop :=
  ∀ later thread patch merged earlier, log =
    later ++ (thread, ⟨.sql (.upsertPropertyDesired productId deviceId patch), .ok merged⟩) ::
      earlier →
    ∀ other, other ≠ thread → ¬Unqueued productId deviceId (Pool.history other earlier)

section Run

variable {config : MqttConfig} {fuel : Nat} {moves : List (Move Request)} {start : World}
  {productId deviceId : String}

theorem shadowRule_of_log {later earlier : List (Nat × Event Op.Ans)} {thread : Nat}
    {event : Event Op.Ans}
    (h : (commandRun config fuel moves start).log = later ++ (thread, event) :: earlier) :
    ShadowRule (Pool.history thread earlier) event.1 := by
  obtain ⟨-, -, hrule⟩ :=
    Pool.allowed_of_log sem (serve config fuel) (shadow_serve config fuel) moves start later
    earlier thread event h
  exact hrule

-- A request merges once.
theorem merge_unique {later later' earlier earlier' : List (Nat × Event Op.Ans)} {thread : Nat}
    {patch patch' : JsonMap} {merged merged' : PropertyDesired}
    (h : (commandRun config fuel moves start).log =
      later ++ (thread, ⟨.sql (.upsertPropertyDesired productId deviceId patch), .ok merged⟩) ::
        earlier)
    (h' : (commandRun config fuel moves start).log =
      later' ++ (thread, ⟨.sql (.upsertPropertyDesired productId deviceId patch'), .ok merged'⟩) ::
        earlier') :
    earlier = earlier' ∧ patch = patch' ∧ merged = merged' := by
  have hnone : Pool.history thread earlier = [] := shadowRule_of_log h
  have hnone' : Pool.history thread earlier' = [] := shadowRule_of_log h'
  rcases Pool.same_or_suffix_of_append_eq (h.symm.trans h') with ⟨-, he, hsame⟩ | hs | hs
  · cases he
    exact ⟨hsame, rfl, rfl⟩
  · have hs := Pool.history_suffix thread hs
    rw [hnone', List.suffix_nil, Pool.history_cons_self] at hs
    cases hs
  · have hs := Pool.history_suffix thread hs
    rw [hnone, List.suffix_nil, Pool.history_cons_self] at hs
    cases hs

-- What a request has enqueued is the delta of its own merge, which came before.
theorem enqueue_after_merge {later later' earlier earlier' : List (Nat × Event Op.Ans)}
    {thread : Nat} {patch : JsonMap} {merged : PropertyDesired} {command : Json} {id : Int}
    (hmerge : (commandRun config fuel moves start).log =
      later ++ (thread, ⟨.sql (.upsertPropertyDesired productId deviceId patch), .ok merged⟩) ::
        earlier)
    (henqueue : (commandRun config fuel moves start).log = later' ++
      (thread, ⟨.sql (.insertPropertyCommand productId deviceId command .desiredDelta), .ok id⟩) ::
        earlier') :
    ((thread, ⟨.sql (.upsertPropertyDesired productId deviceId patch), .ok merged⟩) :: earlier) <:+
      earlier' ∧
      ∃ row, Pool.history thread earlier' = [⟨.sql (.getPropertyLatestOne productId deviceId),
        .ok row⟩,
          ⟨.sql (.upsertPropertyDesired productId deviceId patch), .ok merged⟩] ∧
        command = (computeDelta (objectOrDefault merged.desired) (reportedMap row)).toJson ∧
        (computeDelta (objectOrDefault merged.desired) (reportedMap row)).isEmpty = false := by
  obtain ⟨patch', merged', row, hhistory, hcommand, hdelta⟩ := shadowRule_of_log henqueue
  have hmem : (thread, ⟨.sql (.upsertPropertyDesired productId deviceId patch'), .ok merged'⟩) ∈
      earlier' := by
    rw [← Pool.mem_history, hhistory]
    simp
  obtain ⟨front, back, rfl⟩ := List.append_of_mem hmem
  have hplace := henqueue
  rw [← List.cons_append, ← List.append_assoc] at hplace
  obtain ⟨rfl, rfl, rfl⟩ := merge_unique hmerge hplace
  exact ⟨List.suffix_append _ _, row, hhistory, hcommand, hdelta⟩

theorem Transition.kept {β : Type} {before after : Option (CommandRow β)}
    (h : Transition before after) {row : CommandRow β} (hrow : before = some row) :
    ∃ new, after = some new ∧ new.id = row.id ∧ (new.productId = row.productId ∧ new.deviceId =
      row.deviceId) ∧ new.createdTime = row.createdTime ∧ new.body = row.body := by
  cases h with
  | same => exact ⟨row, hrow, rfl, ⟨rfl, rfl⟩, rfl, rfl⟩
  | create other hnone hpending =>
      rw [hnone] at hrow
      cases hrow
  | move other status now hother hstep =>
      obtain rfl : other = row := Option.some.inj (hother.symm.trans hrow)
      exact ⟨_, rfl, rfl, ⟨rfl, rfl⟩, rfl, rfl⟩

-- The row of an enqueued command keeps its place in the queue order.
theorem enqueued_row {later earlier : List (Nat × Event Op.Ans)} {thread : Nat} {command : Json}
    {id : Int} (h : (commandRun config fuel moves start).log = later ++
      (thread, ⟨.sql (.insertPropertyCommand productId deviceId command .desiredDelta), .ok id⟩) ::
        earlier) :
    id = (Pool.replay sem start earlier).tables.propertyCommands.nextId ∧
      ∃ row, rowAfter start .property id (commandRun config fuel moves start).log = some row ∧
        row.id = id ∧ row.createdTime = (Pool.replay sem start earlier).tick.clock ∧
          row.body.command = command := by
  have hanswer := Pool.answered_play sem (serve config fuel) moves start _ _ _ h
  obtain ⟨hid, htables⟩ := sem_sql_ok hanswer.symm
  have hnext : id = (Pool.replay sem start earlier).tables.propertyCommands.nextId := hid
  refine ⟨hnext, ?_⟩
  rw [h]
  apply along_log start .property id (fun found => ∃ row, found = some row ∧ row.id = id ∧
    row.createdTime = (Pool.replay sem start earlier).tick.clock ∧
      row.body.command = command) _ [] later h
  · refine ⟨(Pool.replay sem start earlier).tables.propertyCommands.newRow productId deviceId
      ⟨command, .desiredDelta⟩ (Pool.replay sem start earlier).tick.clock, ?_, hid.symm, rfl, rfl⟩
    rw [rowAfter, World.row, Pool.replay, htables]
    simp only [Sql.exec, Tables.commands, CommandTable.find_insert]
    rw [if_pos hnext]
  · rintro before after htransition ⟨row, rfl, hrow, htime, hcommand⟩
    obtain ⟨new, rfl, hnew, -, htime', hbody⟩ := htransition.kept rfl
    exact ⟨new, rfl, hnew.trans hrow, htime'.trans htime, by rw [hbody, hcommand]⟩

-- When merges are serial, the request that merged first has enqueued before the other merges.
theorem enqueue_order
    (hserial : SerialMerges productId deviceId (commandRun config fuel moves start).log)
    {laterA laterB beforeA beforeB laterA' laterB' beforeA' beforeB' : List (Nat × Event Op.Ans)}
    {a b : Nat} {patchA patchB : JsonMap} {mergedA mergedB : PropertyDesired}
    {commandA commandB : Json} {idA idB : Int} (hmergeA : (commandRun config fuel moves start).log =
      laterA ++ (a, ⟨.sql (.upsertPropertyDesired productId deviceId patchA), .ok mergedA⟩) ::
        beforeA)
    (hmergeB : (commandRun config fuel moves start).log =
      laterB ++ (b, ⟨.sql (.upsertPropertyDesired productId deviceId patchB), .ok mergedB⟩) ::
        beforeB)
    (hlt : beforeA.length < beforeB.length)
    (henqueueA : (commandRun config fuel moves start).log = laterA' ++
      (a, ⟨.sql (.insertPropertyCommand productId deviceId commandA .desiredDelta), .ok idA⟩) ::
        beforeA')
    (henqueueB : (commandRun config fuel moves start).log = laterB' ++
      (b, ⟨.sql (.insertPropertyCommand productId deviceId commandB .desiredDelta), .ok idB⟩) ::
        beforeB') :
    ((a, ⟨.sql (.insertPropertyCommand productId deviceId commandA .desiredDelta), .ok idA⟩) ::
      beforeA') <:+
      beforeB' := by
  have hfirst : ((a, ⟨.sql (.upsertPropertyDesired productId deviceId patchA), .ok mergedA⟩) ::
      beforeA) <:+
      beforeB := by
    rcases Pool.same_or_suffix_of_append_eq (hmergeA.symm.trans hmergeB) with ⟨-, -, rfl⟩ | hs | hs
    · exact absurd hlt (lt_irrefl _)
    · exact hs
    · have hle := hs.length_le
      rw [List.length_cons] at hle
      omega
  have hne : a ≠ b := by
    rintro rfl
    obtain ⟨rfl, -⟩ := merge_unique hmergeA hmergeB
    exact absurd hlt (lt_irrefl _)
  obtain ⟨-, row, hhistory, -, hdelta⟩ := enqueue_after_merge hmergeA henqueueA
  obtain ⟨hafterB, -⟩ := enqueue_after_merge hmergeB henqueueB
  rcases Pool.same_or_suffix_of_append_eq (henqueueA.symm.trans hmergeB) with ⟨-, he, -⟩ | hs | hs
  · cases he
  · exact hs.trans ((List.suffix_cons _ _).trans hafterB)
  · -- otherwise `b` has merged while `a` was between its merge and its enqueue
    exfalso
    apply hserial _ _ _ _ _ hmergeB a hne
    have hupper := Pool.history_suffix a ((List.suffix_cons _ _).trans hs)
    have hlower := Pool.history_suffix a hfirst
    rw [hhistory] at hupper
    rw [Pool.history_cons_self] at hlower
    rcases List.suffix_cons_iff.mp hupper with hboth | hone
    · exact ⟨patchA, mergedA, .inr ⟨row, hboth, hdelta⟩⟩
    · rcases List.suffix_cons_iff.mp hone with hmerged | hnone
      · exact ⟨patchA, mergedA, .inl hmerged⟩
      · rw [List.suffix_nil.mp hnone] at hlower
        exact absurd (List.suffix_nil.mp hlower) (by simp)

theorem nextId_le_sem (op : Op) (w : World) :
    w.tables.propertyCommands.nextId ≤ (sem op w).2.tables.propertyCommands.nextId := by
  cases op with
  | sql stmt =>
      rw [sem_sql_tables]
      split_ifs
      · exact le_rfl
      · cases stmt with
        | insertPropertyCommand productId deviceId command source => exact (Int.lt_succ _).le
        | claimNextPendingAction productId deviceId =>
            simp only [Sql.exec]
            split <;> exact le_rfl
        | _ => exact le_rfl
  | postPublish request => exact le_rfl
  | getSubscriptions clientId => exact le_rfl

-- A row that is inserted later stands behind.
theorem before_of_enqueued {later later' earlier earlier' : List (Nat × Event Op.Ans)}
    {thread thread' : Nat} {command command' : Json} {id id' : Int}
    (h : (commandRun config fuel moves start).log = later ++
      (thread, ⟨.sql (.insertPropertyCommand productId deviceId command .desiredDelta), .ok id⟩) ::
        earlier)
    (h' : (commandRun config fuel moves start).log = later' ++
      (thread', ⟨.sql (.insertPropertyCommand productId deviceId command' .desiredDelta),
        .ok id'⟩) :: earlier')
    (hs : ((thread, ⟨.sql (.insertPropertyCommand productId deviceId command .desiredDelta),
      .ok id⟩) :: earlier) <:+
      earlier') :
    ∃ a b, rowAfter start .property id (commandRun config fuel moves start).log = some a ∧
      rowAfter start .property id' (commandRun config fuel moves start).log = some b ∧
        a.Before b := by
  obtain ⟨hid, a, ha, haid, hatime, -⟩ := enqueued_row h
  obtain ⟨hid', b, hb, hbid, hbtime, -⟩ := enqueued_row h'
  refine ⟨a, b, ha, hb, ?_⟩
  have hanswer := Pool.answered_play sem (serve config fuel) moves start _ _ _ h
  have hnext := Pool.replay_mono sem (·.tables.propertyCommands.nextId) nextId_le_sem start hs
  have hclock := Pool.replay_mono sem World.clock clock_le_sem start hs
  simp only [Pool.replay, (sem_sql_ok hanswer.symm).2, Sql.exec, CommandTable.insert] at hnext
  rw [Pool.replay, clock_sem] at hclock
  have hidlt : a.id < b.id := by
    rw [haid, hbid, hid']
    omega
  have htime : a.createdTime ≤ b.createdTime := by
    rw [hatime, hbtime]
    exact hclock.trans (clock_le_tick _)
  rcases htime.lt_or_eq with hlt | heq
  · exact .inl hlt
  · exact .inr ⟨heq, hidlt⟩

theorem last_write (rows : List (CommandRow PropertyCommand))
    (hsorted : rows.Pairwise CommandRow.LE) (hnodup : (rows.map (·.id)).Nodup)
    {last : CommandRow PropertyCommand} (hlast : last ∈ rows) (key : String)
    (hothers : ∀ row ∈ rows, row ≠ last → (objectOrDefault row.body.command).get key ≠ none →
      row.Before last)
    (hkey : (objectOrDefault last.body.command).get key ≠ none) :
    (applied (rows.map (objectOrDefault ·.body.command))).get key =
      (objectOrDefault last.body.command).get key := by
  obtain ⟨front, back, rfl⟩ := List.append_of_mem hlast
  rw [List.pairwise_append, List.pairwise_cons] at hsorted
  rw [List.map_append, List.map_cons, List.nodup_append, List.nodup_cons] at hnodup
  have hback : ∀ command ∈ back.map (objectOrDefault ·.body.command), command.get key = none := by
    intro command hcommand
    obtain ⟨row, hrow, rfl⟩ := List.mem_map.mp hcommand
    by_contra hset
    have hne : row ≠ last := by
      rintro rfl
      exact hnodup.2.1.1 (List.mem_map_of_mem hrow)
    exact CommandRow.not_le_of_before (hothers row (by simp [hrow]) hne hset)
      (hsorted.2.1.1 row hrow)
  have hsplit : (front ++ last :: back).map (objectOrDefault ·.body.command) =
      (front.map (objectOrDefault ·.body.command) ++ [objectOrDefault last.body.command]) ++
        back.map (objectOrDefault ·.body.command) := by simp
  obtain ⟨value, hvalue⟩ := Option.ne_none_iff_exists'.mp hkey
  rw [hsplit, get_applied_append hback, applied_concat, get_applyCommand, hvalue, Option.some_or]

end Run

-- For every interleaving of any number of requests, in which no request merges while
-- another one of the device is between its merge and its enqueue.
theorem queue_follows_merges (config : MqttConfig) (fuel : Nat) (moves : List (Move Request))
    (start : World) (productId deviceId : String)
    (hserial : SerialMerges productId deviceId (commandRun config fuel moves start).log) :
    FollowsMerges productId deviceId start (commandRun config fuel moves start).log := by
  have horder : ∀ first second merged merged' time time' command command' id id',
      MergedAt productId deviceId (commandRun config fuel moves start).log first merged time →
      MergedAt productId deviceId (commandRun config fuel moves start).log second merged' time' →
        time < time' →
      Enqueued productId deviceId (commandRun config fuel moves start).log first command id →
      Enqueued productId deviceId (commandRun config fuel moves start).log second command' id' →
      ∃ a b, rowAfter start .property id (commandRun config fuel moves start).log = some a ∧
        rowAfter start .property id' (commandRun config fuel moves start).log = some b ∧
          a.Before b := by
    rintro first second merged merged' _ _ command command' id id' ⟨later, patch, earlier,
      hmerge, rfl⟩ ⟨later', patch', earlier', hmerge', rfl⟩ hlt henqueue henqueue'
    obtain ⟨front, back, hplace⟩ := List.append_of_mem henqueue
    obtain ⟨front', back', hplace'⟩ := List.append_of_mem henqueue'
    exact before_of_enqueued hplace hplace'
      (enqueue_order hserial hmerge hmerge' hlt hplace hplace')
  refine ⟨horder, ?_⟩
  rintro rows hsorted hnodup hrows last hlast thread merged time command hmerged henqueued key
    hkey hothers
  obtain ⟨front, back, hplace⟩ := List.append_of_mem henqueued
  obtain ⟨-, row, hrow, -, -, hcommand⟩ := enqueued_row hplace
  obtain rfl : row = last := Option.some.inj (hrow.symm.trans (hrows last hlast))
  subst hcommand
  rw [last_write rows hsorted hnodup hlast key _ hkey]
  · -- the delta takes its values from the merged document
    obtain ⟨later, patch, earlier, hmerge, -⟩ := hmerged
    obtain ⟨-, reported, -, hdelta, -⟩ := enqueue_after_merge hmerge hplace
    have hmap : objectOrDefault row.body.command = computeDelta (objectOrDefault merged.desired)
      (reportedMap reported) := by
      rw [hdelta]
      simp [objectOrDefault]
    rw [hmap] at hkey ⊢
    obtain ⟨value, hvalue⟩ := Option.ne_none_iff_exists'.mp hkey
    rw [hvalue, (get_computeDelta_some.mp hvalue).1]
  · intro other hother hne hset
    obtain ⟨writer, merged', time', command', hmerged', henqueued', hlt⟩ :=
      hothers other hother hne hset
    obtain ⟨a, b, ha, hb, hbefore⟩ :=
      horder writer thread merged' merged time' time command' _ _ _ hmerged' hmerged hlt henqueued'
        henqueued
    obtain rfl : a = other := Option.some.inj (ha.symm.trans (hrows other hother))
    obtain rfl : b = row := Option.some.inj (hb.symm.trans hrow)
    exact hbefore

section Example

def mergedDevice : Event Op.Ans → Option (String × String)
  | ⟨.sql (.upsertPropertyDesired productId deviceId _), .ok _⟩ => some (productId, deviceId)
  | _ => none

def enqueuedRow : Event Op.Ans → Option (String × String × Int)
  | ⟨.sql (.insertPropertyCommand productId deviceId _ .desiredDelta), .ok id⟩ =>
      some (productId, deviceId, id)
  | _ => none

variable {productId deviceId : String} {log : List (Nat × Event Op.Ans)} {thread : Nat}

theorem eq_of_mergedDevice {event : Event Op.Ans}
    (h : mergedDevice event = some (productId, deviceId)) :
    ∃ patch merged, event = ⟨.sql (.upsertPropertyDesired productId deviceId patch),
      .ok merged⟩ := by
  unfold mergedDevice at h
  split at h
  · cases h
    exact ⟨_, _, rfl⟩
  · cases h

theorem eq_of_enqueuedRow {event : Event Op.Ans} {id : Int}
    (h : enqueuedRow event = some (productId, deviceId, id)) :
    ∃ command, event = ⟨.sql (.insertPropertyCommand productId deviceId command .desiredDelta),
      .ok id⟩ := by
  unfold enqueuedRow at h
  split at h
  · cases h
    exact ⟨_, rfl⟩
  · cases h

theorem mergedAt_of_get (place : Nat)
    (h : log[place]?.map (fun entry => (entry.1, mergedDevice entry.2)) =
      some (thread, some (productId, deviceId))) :
    ∃ merged, MergedAt productId deviceId log thread merged (log.drop (place + 1)).length := by
  obtain ⟨⟨found, event⟩, hentry, he⟩ := Option.map_eq_some_iff.mp h
  obtain ⟨rfl, hevent⟩ := Prod.mk.inj he
  obtain ⟨patch, merged, rfl⟩ := eq_of_mergedDevice hevent
  obtain ⟨hplace, hget⟩ := List.getElem?_eq_some_iff.mp hentry
  refine ⟨merged, log.take place, patch, log.drop (place + 1), ?_, rfl⟩
  rw [← hget, ← List.drop_eq_getElem_cons hplace, List.take_append_drop]

theorem enqueued_of_get (place : Nat) {id : Int}
    (h : log[place]?.map (fun entry => (entry.1, enqueuedRow entry.2)) =
      some (thread, some (productId, deviceId, id))) : ∃ command,
          Enqueued productId deviceId log thread command id := by
  obtain ⟨⟨found, event⟩, hentry, he⟩ := Option.map_eq_some_iff.mp h
  obtain ⟨rfl, hevent⟩ := Prod.mk.inj he
  obtain ⟨command, rfl⟩ := eq_of_enqueuedRow hevent
  exact ⟨command, List.mem_of_getElem? hentry⟩

-- A request that has done three operations is done with its enqueue.
theorem serialMerges_of_done (h : ∀ place < log.length, ∀ entry ∈ log.drop (place + 1),
    log[place]?.map (·.1) = some entry.1 ∨ (log[place]?.bind (mergedDevice ·.2)) = none ∨
      3 ≤ (Pool.history entry.1 (log.drop (place + 1))).length) :
        SerialMerges productId deviceId log := by
  rintro later thread patch merged earlier rfl other hne hunqueued
  have hdrop : (later ++ (thread, ⟨.sql (.upsertPropertyDesired productId deviceId patch),
      .ok merged⟩) ::
      earlier).drop (later.length + 1) = earlier := by simp
  have hcheck := h later.length (by simp)
  rw [hdrop] at hcheck
  have hshort : (Pool.history other earlier).length ≤ 2 ∧ Pool.history other earlier ≠ [] := by
    obtain ⟨_, _, he | ⟨_, he, -⟩⟩ := hunqueued <;> simp [he]
  obtain ⟨event, hevent⟩ := List.exists_mem_of_ne_nil _ hshort.2
  have hother := hcheck (other, event) (Pool.mem_history.mp hevent)
  simp only [List.getElem?_append_right le_rfl, Nat.sub_self, List.getElem?_cons_zero,
    Option.map_some,
    Option.some.injEq, Option.bind_some, mergedDevice, reduceCtorEq, false_or] at hother
  rcases hother with he | hlong
  · exact hne he.symm
  · omega

def setX (value : UInt64) : Request := .setPropertyDesired ⟨"p", "d", xIs value⟩

-- The second request merges when the first one has enqueued.
def oneAfterTheOther : List (Move Request) :=
  [.spawn (setX 1), .spawn (setX 2)] ++ List.replicate 3 (.step 0) ++ List.replicate 3 (.step 1)

theorem serial_requests_follow_merges :
    FollowsMerges "p" "d" (World.started .empty) (commandRun testConfig 0 oneAfterTheOther
      (World.started .empty)).log ∧
      (∃ merged, MergedAt "p" "d" (commandRun testConfig 0 oneAfterTheOther
        (World.started .empty)).log 0 merged 0) ∧
      ∃ merged, MergedAt "p" "d" (commandRun testConfig 0 oneAfterTheOther
        (World.started .empty)).log 1 merged 3 := by
  refine ⟨queue_follows_merges testConfig 0 oneAfterTheOther (World.started .empty) "p" "d" ?_, ?_,
    ?_⟩
  · apply serialMerges_of_done
    decide +kernel
  · exact mergedAt_of_get 5 (by decide +kernel)
  · exact mergedAt_of_get 2 (by decide +kernel)

-- The first request merges, the second one merges and enqueues, then the first one enqueues.
def overtaken : List (Move Request) :=
  [.spawn (setX 1), .spawn (setX 2), .step 0] ++ List.replicate 3 (.step 1) ++ List.replicate 2
    (.step 0)

theorem overtaken_request_enqueues_last :
    ¬FollowsMerges "p" "d" (World.started .empty)
      (commandRun testConfig 0 overtaken (World.started .empty)).log := by
  intro h
  obtain ⟨merged, hmerged⟩ : ∃ merged, MergedAt "p" "d"
    (commandRun testConfig 0 overtaken (World.started .empty)).log 0 merged 0 :=
      mergedAt_of_get 5 (by decide +kernel)
  obtain ⟨merged', hmerged'⟩ : ∃ merged, MergedAt "p" "d"
    (commandRun testConfig 0 overtaken (World.started .empty)).log 1 merged 1 :=
      mergedAt_of_get 4 (by decide +kernel)
  obtain ⟨command, henqueued⟩ : ∃ command, Enqueued "p" "d"
    (commandRun testConfig 0 overtaken (World.started .empty)).log 0 command 2 :=
      enqueued_of_get 0 (by decide +kernel)
  obtain ⟨command', henqueued'⟩ : ∃ command, Enqueued "p" "d"
    (commandRun testConfig 0 overtaken (World.started .empty)).log 1 command 1 :=
      enqueued_of_get 2 (by decide +kernel)
  obtain ⟨a, b, ha, hb, hbefore⟩ :=
    h.order 0 1 merged merged' 0 1 command command' 2 1 hmerged hmerged' (by decide) henqueued
      henqueued'
  have hatime : (rowAfter (World.started .empty) .property 2
      (commandRun testConfig 0 overtaken (World.started .empty)).log).map
        (fun row => (row.createdTime, row.id)) =
        some (0, 2) := by decide +kernel
  have hbtime : (rowAfter (World.started .empty) .property 1
      (commandRun testConfig 0 overtaken (World.started .empty)).log).map
        (fun row => (row.createdTime, row.id)) =
        some (0, 1) := by decide +kernel
  rw [ha, Option.map_some, Option.some.injEq, Prod.mk.injEq] at hatime
  rw [hb, Option.map_some, Option.some.injEq, Prod.mk.injEq] at hbtime
  rw [CommandRow.Before, hatime.1, hatime.2, hbtime.1, hbtime.2] at hbefore
  exact absurd hbefore (by decide)

end Example

end RmqttThings.Commands
