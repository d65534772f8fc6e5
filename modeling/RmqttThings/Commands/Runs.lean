import RmqttThings.Effects.Pool
import RmqttThings.Commands.Handlers
import RmqttThings.RuleEngine.Keys

namespace RmqttThings.Commands

open Effects

-- Any number of requests at once, interleaved at every statement and every call of
-- the broker.
abbrev commandRun (config : MqttConfig) (fuel : Nat) (moves : List (Move Request)) (start : World) :
    Pool World Request Op.Ans (Option Reply) :=
  Pool.play sem (serve config fuel) moves start

inductive Queue where
  | property
  | action
  deriving DecidableEq

namespace Queue

@[reducible] def Body : Queue → Type
  | property => PropertyCommand
  | action => ActionInvocation

def label : Queue → String
  | property => "property"
  | action => "action"

end Queue

def Tables.commands (t : Tables) : (queue : Queue) → CommandTable queue.Body
  | .property => t.propertyCommands
  | .action => t.actionInvocations

def World.row (queue : Queue) (id : Int) (w : World) : Option (CommandRow queue.Body) :=
  (w.tables.commands queue).find id

-- The correlation id that a message of the row carries.
def correlationId (key : Queue × Int) : String := key.1.label ++ ":" ++ toString key.2

theorem Queue.label_injective {queue other : Queue} (h : queue.label.toList = other.label.toList) :
    queue = other := by
  cases queue <;> cases other <;> first | rfl | exact absurd h (by decide)

theorem correlationId_inj {key other : Queue × Int} (h : correlationId key = correlationId other) :
    key = other := by
  obtain ⟨queue, id⟩ := key
  obtain ⟨queue', id'⟩ := other
  have hcolon : ∀ queue : Queue, ':' ∉ queue.label.toList := by
    intro queue
    cases queue <;> decide
  have hlist : queue.label.toList ++ ':' :: (toString id).toList = queue'.label.toList ++ ':' ::
    (toString id').toList := by
    simpa [correlationId, ← String.toList_inj, String.toList_append] using h
  obtain ⟨hlabel, hid⟩ := RuleEngine.append_separator_inj (hcolon queue) (hcolon queue') hlist
  rw [Queue.label_injective hlabel, RuleEngine.toString_int_injective (String.toList_inj.mp hid)]

section Events

-- The rows that a claim has handed to its caller, in the order of the answer.
def handedOut : Event Op.Ans → List (Queue × Int)
  | ⟨.sql (.updatePendingCommandsToSent _ _), .ok rows⟩ => rows.map fun row => (.property, row.id)
  | ⟨.sql (.claimNextPendingAction _ _), .ok (some row)⟩ => [(.action, row.id)]
  | _ => []

-- The correlation id of an attempt to publish.
def published : Event Op.Ans → Option String
  | ⟨.postPublish request, _⟩ => some request.payload.id
  | _ => none

-- Whether the broker has accepted the attempt.
def accepted : Event Op.Ans → Bool
  | ⟨.postPublish _, reply⟩ => reply.isSuccess
  | _ => false

-- Events that claim nothing and publish nothing but `rows`.
def Within (rows : List (Queue × Int)) (events : List (Event Op.Ans)) : Prop :=
  ∀ event ∈ events, handedOut event = [] ∧ ∀ other, published event = some other →
    other ∈ rows.map correlationId

-- A row is published after it has been handed out, when every row handed out before
-- it is done with, and while the broker has refused it at most `retries` times.
def Handed (config : MqttConfig) (past : List (Event Op.Ans)) (correlation : String) : Prop :=
  ∃ tries middle claim older done key rest, past = tries ++ middle ++ claim :: older ∧
    handedOut claim = done ++ key :: rest ∧ correlation = correlationId key ∧
    (∀ event ∈ tries, published event = some correlation ∧ accepted event = false) ∧
    tries.length ≤ config.propertyCommand.publish.retries.toNat ∧ Within done middle

-- Replies and recorded failures only ever settle rows that are Sent.
def Sql.Disciplined : Sql → Prop
  | .updatePropertyCommandStatus _ _ _ status prevStatus =>
      prevStatus = .sent ∧ (status = .success ∨ status = .failed)
  | .updateActionInvocationStatus _ _ _ _ status prevStatus => prevStatus = .sent ∧
      (status = .success ∨ status = .failed)
  | _ => True

def CommandRule (config : MqttConfig) (past : List (Event Op.Ans)) : Op → Prop
  | .sql stmt => stmt.Disciplined
  | .postPublish request => Handed config past request.payload.id
  | .getSubscriptions _ => True

end Events

section Publishing

variable {config : MqttConfig} {past : List (Event Op.Ans)}

theorem handedOut_of_published {event : Event Op.Ans} {correlation : String}
    (h : published event = some correlation) :
    handedOut event = [] := by
  unfold published at h
  split at h
  · rfl
  · cases h

theorem Within.append {rows : List (Queue × Int)} {key : Queue × Int}
    {middle tries : List (Event Op.Ans)} (h : Within rows middle)
    (htries : ∀ event ∈ tries, published event = some (correlationId key)) :
    Within (rows ++ [key]) (tries ++ middle) := by
  intro event hevent
  rcases List.mem_append.mp hevent with ht | hm
  · refine ⟨handedOut_of_published (htries event ht), ?_⟩
    intro other hother
    rw [htries event ht, Option.some.injEq] at hother
    simp [← hother]
  · refine ⟨(h event hm).1, ?_⟩
    intro other hother
    rw [List.map_append]
    exact List.mem_append_left _ ((h event hm).2 other hother)

section Command

variable {request : PublishRequest} {claim : Event Op.Ans} {middle older : List (Event Op.Ans)}
  {done rest : List (Queue × Int)} {key : Queue × Int}

-- The attempts that are left, after `tries` that were refused.
theorem spec_publishAttempts (hclaim : handedOut claim = done ++ key :: rest)
    (hkey : request.payload.id = correlationId key) (hmiddle : Within done middle)
    (attempts : Nat) (tries : List (Event Op.Ans))
    (htries : ∀ event ∈ tries, published event = some request.payload.id ∧ accepted event = false)
    (hlength : tries.length + attempts ≤ config.propertyCommand.publish.retries.toNat + 1) :
    Prog.Spec (CommandRule config)
      (fun _ past => ∃ middle, past = middle ++ claim :: older ∧ Within (done ++ [key]) middle)
      (publishAttempts request attempts) (tries ++ middle ++ claim :: older) := by
  induction attempts generalizing tries with
  | zero =>
      refine ⟨tries ++ middle, by simp, hmiddle.append ?_⟩
      exact fun event hevent => hkey ▸ (htries event hevent).1
  | succ attempts ih =>
      rw [publishAttempts_succ]
      refine ⟨⟨tries, middle, claim, older, done, key, rest, rfl, hclaim, hkey, htries, by omega,
        hmiddle⟩, ?_⟩
      intro reply
      dsimp only
      by_cases hreply : reply.isSuccess = true
      · rw [if_pos hreply]
        refine ⟨(⟨.postPublish request, reply⟩ :: tries) ++ middle, by simp, hmiddle.append ?_⟩
        intro event hevent
        rcases List.mem_cons.mp hevent with rfl | ht
        · exact congrArg some hkey
        · exact hkey ▸ (htries event ht).1
      · rw [if_neg hreply]
        apply ih (⟨.postPublish request, reply⟩ :: tries)
        · intro event hevent
          rcases List.mem_cons.mp hevent with rfl | ht
          · exact ⟨rfl, by simpa [accepted] using hreply⟩
          · exact htries event ht
        · rw [List.length_cons]
          omega

theorem spec_publishCommand (hclaim : handedOut claim = done ++ key :: rest)
    (hkey : request.payload.id = correlationId key) (hmiddle : Within done middle) :
    Prog.Spec (CommandRule config)
      (fun _ past => ∃ middle, past = middle ++ claim :: older ∧ Within (done ++ [key]) middle)
      (publishCommand config request) (middle ++ claim :: older) := by
  unfold publishCommand
  apply Prog.Spec.seq
  · exact spec_publishAttempts hclaim hkey hmiddle (config.propertyCommand.publish.retries.toNat +
      1) [] (by simp) (by simp)
  · intro ok past h
    cases ok <;> exact h

end Command

theorem spec_publishProperties {productId deviceId : String}
    {rows : List (CommandRow PropertyCommand)} {claim : Event Op.Ans} {older : List (Event Op.Ans)}
    (hclaim : handedOut claim = rows.map fun row => (.property, row.id))
    (done todo : List (CommandRow PropertyCommand)) (hrows : rows = done ++ todo)
    (middle : List (Event Op.Ans))
    (hmiddle : Within (done.map fun row => (Queue.property, row.id)) middle) :
    Prog.Spec (CommandRule config) (fun _ _ => True)
      (publishProperties config productId deviceId todo) (middle ++ claim :: older) := by
  induction todo generalizing done middle with
  | nil => trivial
  | cons row todo ih =>
      have hsplit : handedOut claim = (done.map fun row => (Queue.property, row.id)) ++
          (Queue.property, row.id) :: todo.map fun row => (Queue.property, row.id) := by
        rw [hclaim, hrows, List.map_append, List.map_cons]
      apply Prog.Spec.seq (spec_publishCommand hsplit rfl hmiddle)
      rintro ok past ⟨middle, rfl, hmiddle⟩
      have hdone : (done ++ [row]).map (fun row => (Queue.property, row.id)) =
          (done.map fun row => (Queue.property, row.id)) ++ [(Queue.property, row.id)] := by simp
      rw [← hdone] at hmiddle
      cases ok with
      | ok _ => exact ih (done ++ [row]) (by simp [hrows]) middle hmiddle
      | error _ =>
          refine ⟨trivial, ?_⟩
          intro answer
          cases answer with
          | error _ => trivial
          | ok _ =>
              apply ih (done ++ [row]) (by simp [hrows]) (_ :: middle)
              intro event hevent
              rcases List.mem_cons.mp hevent with rfl | hm
              · exact ⟨rfl, by simp [published]⟩
              · exact hmiddle event hm

theorem spec_sendProperty (productId deviceId : String) :
    Prog.Spec (CommandRule config) (fun _ _ => True) (sendPropertyCommandToDevice config productId
      deviceId) past := by
  refine ⟨trivial, ?_⟩
  intro answer
  cases answer with
  | error _ => trivial
  | ok rows => exact spec_publishProperties rfl [] rows rfl [] (by simp [Within])

-- The row has just been claimed.
theorem spec_publishAction {productId deviceId : String} {row : CommandRow ActionInvocation}
    {claim : Event Op.Ans} (hclaim : handedOut claim = [(.action, row.id)]) :
    Prog.Spec (CommandRule config) (fun _ _ => True) (publishAction config productId deviceId row)
      (claim :: past) := by
  have hquiet : Within [] [] := by simp [Within]
  apply Prog.Spec.seq (spec_publishCommand hclaim rfl hquiet)
  rintro ok past -
  cases ok with
  | ok _ => trivial
  | error _ => exact ⟨⟨rfl, .inr rfl⟩, fun _ => trivial⟩

theorem spec_sendActions (productId deviceId : String) (fuel : Nat) :
    Prog.Spec (CommandRule config) (fun _ _ => True) (sendActionInvocationsToDevice config productId
      deviceId fuel) past := by
  induction fuel generalizing past with
  | zero => trivial
  | succ fuel ih =>
      refine ⟨trivial, ?_⟩
      intro answer
      rcases answer with _ | _ | row
      · trivial
      · trivial
      · apply Prog.Spec.seq (spec_publishAction rfl)
        intro _ _ _
        exact ih

theorem spec_isSubscribed (productId clientId serviceType : String) :
    Prog.Spec (CommandRule config) (fun _ _ => True) (isSubscribedToServiceAction productId clientId
      serviceType) past := by
  obtain ⟨answer, heq⟩ := isSubscribedToServiceAction_eq productId clientId serviceType
  rw [heq]
  exact ⟨trivial, fun _ => trivial⟩

theorem spec_deliverProperties (productId deviceId : String) :
    Prog.Spec (CommandRule config) (fun _ _ => True) (deliverProperties config productId deviceId)
      past := by
  apply Prog.Spec.seq (spec_isSubscribed productId deviceId "property")
  intro subscribed past _
  split
  · apply Prog.Spec.seq (spec_sendProperty productId deviceId)
    intro _ _ _
    trivial
  · trivial

end Publishing

section Handlers

variable {config : MqttConfig} {past : List (Event Op.Ans)}

theorem parseSetReply_status {msg : RMqttPublishMessage} {reply : SetReply}
    (h : parseSetReply msg = .ok reply) :
    reply.status = .success ∨ reply.status = .failed := by
  simp only [parseSetReply, bind, Except.bind] at h
  repeat' split at h
  all_goals cases h
  · exact .inl rfl
  · exact .inr rfl

theorem spec_serviceSetReply (msg : RMqttPublishMessage) :
    Prog.Spec (CommandRule config) (fun _ _ => True) (serviceSetReply msg) past := by
  unfold serviceSetReply
  cases hparse : parseSetReply msg with
  | error error => trivial
  | ok reply =>
      have hstatus := parseSetReply_status hparse
      dsimp only
      split_ifs
      · refine ⟨⟨rfl, hstatus⟩, ?_⟩
        intro answer
        cases answer <;> trivial
      · refine ⟨⟨rfl, hstatus⟩, ?_⟩
        intro answer
        cases answer <;> trivial
      · trivial

theorem spec_serviceSetSubscribe (fuel : Nat) (msg : RMqttSubscribeMessage) :
    Prog.Spec (CommandRule config) (fun _ _ => True) (serviceSetSubscribe config fuel msg)
      past := by
  unfold serviceSetSubscribe
  split
  · trivial
  · apply Prog.Spec.seq (spec_isSubscribed _ _ "property")
    intro subscribed past _
    split
    · apply Prog.Spec.seq (spec_sendProperty _ _)
      intro sent past _
      split
      · trivial
      · apply Prog.Spec.seq (spec_sendActions _ _ fuel)
        intro drained past _
        split <;> trivial
    · trivial

theorem spec_deviceConnect (fuel : Nat) (req : DeviceConnectRequest) :
    Prog.Spec (CommandRule config) (fun _ _ => True) (deviceConnect config fuel req) past := by
  unfold deviceConnect
  split
  · trivial
  · refine ⟨trivial, ?_⟩
    intro answer
    cases answer with
    | error _ => trivial
    | ok _ =>
        apply Prog.Spec.seq (spec_isSubscribed _ _ "property")
        intro subscribed past _
        split
        · apply Prog.Spec.seq (spec_sendProperty _ _)
          intro sent past _
          apply Prog.Spec.seq (spec_sendActions _ _ fuel)
          intro drained past _
          split <;> trivial
        · trivial

theorem spec_createPropertyCommand (req : CreatePropertyCommandRequest) :
    Prog.Spec (CommandRule config) (fun _ _ => True) (createPropertyCommand config req) past := by
  unfold createPropertyCommand
  split
  · trivial
  · split_ifs
    · trivial
    · refine ⟨trivial, ?_⟩
      intro answer
      cases answer with
      | error _ => trivial
      | ok _ =>
          apply Prog.Spec.seq (spec_deliverProperties _ _)
          intro _ _ _
          trivial

theorem spec_setPropertyDesired (req : SetDesiredRequest) :
    Prog.Spec (CommandRule config) (fun _ _ => True) (setPropertyDesired config req) past := by
  unfold setPropertyDesired
  split
  · trivial
  · split_ifs
    · trivial
    · refine ⟨trivial, ?_⟩
      intro answer
      cases answer with
      | error _ => trivial
      | ok merged =>
          refine ⟨trivial, ?_⟩
          intro answer
          cases answer with
          | error _ => trivial
          | ok reportedRow =>
              dsimp only [Prog.ret_bind]
              split_ifs
              · trivial
              · refine ⟨trivial, ?_⟩
                intro answer
                cases answer with
                | error _ => trivial
                | ok _ =>
                    apply Prog.Spec.seq (spec_deliverProperties _ _)
                    intro _ _ _
                    trivial

theorem spec_createServiceCommand (fuel : Nat) (req : CreateActionCommandRequest) :
    Prog.Spec (CommandRule config) (fun _ _ => True) (createServiceCommand config fuel req)
      past := by
  unfold createServiceCommand
  split
  · trivial
  · split
    · trivial
    · refine ⟨trivial, ?_⟩
      intro answer
      cases answer with
      | error _ => trivial
      | ok id =>
          apply Prog.Spec.seq (spec_isSubscribed _ _ _)
          intro subscribed past _
          split
          · apply Prog.Spec.seq (spec_sendActions _ _ fuel)
            intro drained past _
            split <;> trivial
          · trivial

theorem spec_serve (config : MqttConfig) (fuel : Nat) (request : Request) :
    Prog.Spec (CommandRule config) (fun _ _ => True) (serve config fuel request) [] := by
  cases request with
  | serviceSetReply msg => exact (spec_serviceSetReply msg).seq fun _ _ _ => trivial
  | serviceSetSubscribe msg => exact spec_serviceSetSubscribe fuel msg
  | deviceConnect req => exact spec_deviceConnect fuel req
  | createPropertyCommand req => exact (spec_createPropertyCommand req).seq fun _ _ _ => trivial
  | setPropertyDesired req => exact (spec_setPropertyDesired req).seq fun _ _ _ => trivial
  | createServiceCommand req => exact spec_createServiceCommand fuel req
  | deletePropertyCommands ids =>
      refine ⟨trivial, ?_⟩
      intro answer
      cases answer <;> trivial
  | deleteServiceCommands ids =>
      refine ⟨trivial, ?_⟩
      intro answer
      cases answer <;> trivial

end Handlers

end RmqttThings.Commands
