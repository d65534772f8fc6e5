import RmqttThings.Commands.Orphans
import RmqttThings.Ota.Versions

namespace RmqttThings.Commands

open Effects
open RuleEngine (toList_toString_int)

section Correlation

theorem splitOnce_append {separator : Char} {before after : List Char} (h : separator ∉ before) :
    splitOnce separator (String.ofList (before ++ separator :: after)) =
      some (String.ofList before, String.ofList after) := by
  have hspan : (before ++ separator :: after).span (· != separator) =
      (before, separator :: after) := by
    rw [List.span_eq_takeWhile_dropWhile]
    have hkeep : ∀ char ∈ before, (char != separator) = true := by
      intro char hchar
      rw [bne_iff_ne]
      rintro rfl
      exact h hchar
    rw [List.takeWhile_append_of_pos hkeep, List.dropWhile_append_of_pos hkeep]
    simp
  rw [splitOnce, String.toList_ofList, hspan]

-- What `format!` writes of an id, `parse` reads back.
theorem parseI64_toString {id : Int} (hmin : -2 ^ 63 ≤ id) (hmax : id < 2 ^ 63) :
    parseI64 (toString id) = some id := by
  have hread : ∀ n : Nat, (Nat.toDigits 10 n).isEmpty = false ∧
      (Nat.toDigits 10 n).all Char.isDigit = true := by
    intro n
    exact ⟨by simp [Nat.toDigits_ne_nil], Ota.all_isDigit_decimal n⟩
  unfold parseI64
  rw [toList_toString_int]
  by_cases hid : 0 ≤ id
  · rw [if_pos hid, Ota.sign_of_digits (hread id.toNat).2]
    simp only [hread, Ota.digits_decimal, Int.toNat_of_nonneg hid, Bool.false_eq_true, not_true,
      or_self, if_false]
    exact if_pos ⟨hmin, hmax⟩
  · rw [if_neg hid]
    have hsign : ParseF64.sign ('-' :: Nat.toDigits 10 (-id).toNat) =
        (true, Nat.toDigits 10 (-id).toNat) := rfl
    have hvalue : ((-id).toNat : Int) = -id := Int.toNat_of_nonneg (by omega)
    rw [hsign]
    simp only [hread, Ota.digits_decimal, hvalue, Bool.false_eq_true, not_true, or_self, if_false,
      if_true, neg_neg]
    exact if_pos ⟨hmin, hmax⟩

theorem splitOnce_commandPayload (queue : Queue) (id : Int) (params : Json) :
    splitOnce ':' (commandPayload queue.label id params).id = some (queue.label, toString id) := by
  have hcolon : ':' ∉ queue.label.toList := by cases queue <;> decide
  have hid : (commandPayload queue.label id params).id =
      String.ofList (queue.label.toList ++ ':' :: (toString id).toList) := by
    simp [commandPayload, ← String.toList_inj]
  rw [hid, splitOnce_append hcolon, String.ofList_toList, String.ofList_toList]

end Correlation

section Addressee

def ofServiceType (msg : RMqttPublishMessage) : (queue : Queue) → CommandRow queue.Body → Prop
  | .property, _ => True
  | .action, row => extractServiceTypeFromTopic msg.topic = some row.body.serviceType

-- The row that a reply is about: the correlation id names it, and it waits for a reply
-- of the client, under the product of the topic.
structure Addresses (msg : RMqttPublishMessage) (queue : Queue) (row : CommandRow queue.Body) :
    Prop where
  correlation : ∃ id code dbId, msg.payload = .response id code ∧
    splitOnce ':' id = some (queue.label, dbId) ∧ parseI64 dbId = some row.id
  product : extractProductIdFromTopic msg.topic = some row.productId
  device : row.deviceId = msg.clientId
  serviceType : ofServiceType msg queue row
  sent : row.status = .sent

-- The reply gives this row the status of its code, and changes nothing else.
def Settles (msg : RMqttPublishMessage) (queue : Queue) (row : CommandRow queue.Body)
    (before after : Tables) : Prop :=
  ∃ id code now, msg.payload = .response id code ∧ Addresses msg queue row ∧
    row ∈ (before.commands queue).rows ∧
    (after.commands queue).rows = (before.commands queue).rows.map (fun other =>
      if other.id = row.id then other.moved (if 200 ≤ code ∧ code ≤ 299 then .success else .failed)
        now else other) ∧
    (after.commands queue).nextId = (before.commands queue).nextId ∧
    (∀ other ≠ queue, after.commands other = before.commands other) ∧
    after.propertyDesired = before.propertyDesired ∧ after.propertyLatest = before.propertyLatest

def AtMostOneRow (msg : RMqttPublishMessage) (before after : Tables) : Prop :=
  after = before ∨ ∃ queue row, Settles msg queue row before after

-- No row waits for this reply.
def Unaddressed (msg : RMqttPublishMessage) (t : Tables) : Prop :=
  ∀ queue, ∀ row ∈ (t.commands queue).rows, ¬Addresses msg queue row

theorem parseSetReply_ok {msg : RMqttPublishMessage} {reply : SetReply}
    (h : parseSetReply msg = .ok reply) :
    ∃ id code dbId, msg.payload = .response id code ∧ splitOnce ':' id = some (reply.label, dbId) ∧
      parseI64 dbId = some reply.dbId ∧
        reply.status = (if 200 ≤ code ∧ code ≤ 299 then .success else .failed) ∧
      extractProductIdFromTopic msg.topic = some reply.productId ∧
      extractServiceTypeFromTopic msg.topic = some reply.serviceType := by
  unfold parseSetReply at h
  cases hclient : validateIdentifier msg.clientId "device_id" with
  | error error => simp [hclient, bind, Except.bind] at h
  | ok _ =>
      cases hproduct : extractProductIdFromTopic msg.topic with
      | none => simp [hclient, hproduct, extractAndValidateProductId, bind, Except.bind] at h
      | some productId =>
          cases hvalid : validateIdentifier productId "product_id" with
          | error error =>
              simp [hclient, hproduct, hvalid, extractAndValidateProductId, bind, Except.bind] at h
          | ok _ =>
              cases hservice : extractServiceTypeFromTopic msg.topic with
              | none =>
                  simp [hclient, hproduct, hvalid, hservice, extractAndValidateProductId, bind,
                    Except.bind, pure, Except.pure] at h
              | some serviceType =>
                  simp only [hclient, hproduct, hvalid, hservice, extractAndValidateProductId, bind,
                    Except.bind, pure, Except.pure] at h
                  split at h
                  · cases h
                  · cases h
                  · split at h
                    · cases h
                    · split at h
                      · cases h
                      · rename_i id code hpayload _ label dbId hsplit _ row hparse
                        cases h
                        exact ⟨id, code, dbId, hpayload, hsplit, hparse, rfl, rfl, rfl⟩

end Addressee

section Update

variable {β : Type} {table : CommandTable β} {cond : CommandRow β → Bool}
  {status prev : CommandStatus}

theorem CommandTable.ext_rows {table other : CommandTable β} (hrows : table.rows = other.rows)
    (hnext : table.nextId = other.nextId) : table = other := by
  cases table
  cases other
  simp_all

theorem CommandTable.update_of_none (h : ∀ row ∈ table.rows, ¬(cond row = true ∧ row.status = prev))
    (now : OffsetDateTime) : table.update cond status prev now = table := by
  have hrow : ∀ row ∈ table.rows,
      (if cond row && row.status == prev then row.moved status now else row) = row := by
    intro row hmem
    exact if_neg (by simpa using h row hmem)
  exact ext_rows ((List.map_congr_left hrow).trans (List.map_id' _)) rfl

-- A condition that only one id meets is met by one row, which is then known by its id.
theorem CommandTable.update_rows {row : CommandRow β} (hmem : row ∈ table.rows)
    (hcond : cond row = true) (hprev : row.status = prev)
    (hid : ∀ other, cond other = true → other.id = row.id) (now : OffsetDateTime) :
    (table.update cond status prev now).rows =
      table.rows.map fun other => if other.id = row.id then other.moved status now else other := by
  apply List.map_congr_left
  intro other hother
  by_cases h : other.id = row.id
  · obtain rfl := List.inj_on_of_nodup_map table.unique hother hmem h
    simp [hcond, hprev]
  · have hnot : cond other = false := by
      rw [← Bool.not_eq_true]
      exact fun hcond => h (hid other hcond)
    simp [h, hnot]

theorem Tables.ext_commands {t other : Tables}
    (h : ∀ queue, t.commands queue = other.commands queue)
    (hdesired : t.propertyDesired = other.propertyDesired)
    (hlatest : t.propertyLatest = other.propertyLatest) :
    t = other := by
  cases t
  cases other
  simp only [Tables.mk.injEq]
  exact ⟨h .property, h .action, hdesired, hlatest⟩

end Update

section Statement

variable {msg : RMqttPublishMessage} {before after : Tables}

-- One update of one queue, whose condition is that the reply addresses the row.
theorem settles_of_update (queue : Queue) (cond : CommandRow queue.Body → Bool) {id : String}
    {code : Int32} {now : OffsetDateTime} (hpayload : msg.payload = .response id code)
    (hcond : ∀ row, cond row = true ∧ row.status = .sent ↔ Addresses msg queue row)
    (hid : ∀ row other, cond row = true → cond other = true → row.id = other.id)
    (hothers : ∀ other ≠ queue, ∀ row, ¬Addresses msg other row)
    (hafter : after.commands queue = (before.commands queue).update cond
      (if 200 ≤ code ∧ code ≤ 299 then .success else .failed) .sent now)
    (hrest : ∀ other ≠ queue, after.commands other = before.commands other)
    (hdesired : after.propertyDesired = before.propertyDesired)
    (hlatest : after.propertyLatest = before.propertyLatest) :
    (after = before ∧ Unaddressed msg before) ∨ ∃ queue row,
      Settles msg queue row before after := by
  by_cases h : ∃ row ∈ (before.commands queue).rows, Addresses msg queue row
  · obtain ⟨row, hmem, haddresses⟩ := h
    obtain ⟨hrow, hsent⟩ := (hcond row).mpr haddresses
    refine .inr ⟨queue, row, id, code, now, hpayload, haddresses, hmem, ?_, ?_, hrest,
      hdesired, hlatest⟩
    · rw [hafter]
      exact CommandTable.update_rows hmem hrow hsent (fun other hother => hid other row hother hrow)
        now
    · rw [hafter]
      rfl
  · have hnone : ∀ row ∈ (before.commands queue).rows, ¬(cond row = true ∧ row.status = .sent) := by
      intro row hmem hrow
      exact h ⟨row, hmem, (hcond row).mp hrow⟩
    rw [CommandTable.update_of_none hnone] at hafter
    refine .inl ⟨?_, ?_⟩
    · apply Tables.ext_commands _ hdesired hlatest
      intro other
      by_cases hother : other = queue
      · rw [hother, hafter]
      · exact hrest other hother
    · intro other row hmem haddresses
      by_cases hother : other = queue
      · subst hother
        exact h ⟨row, hmem, haddresses⟩
      · exact hothers other hother row haddresses

-- The statement of a reply that has been understood.
def SetReply.statement (reply : SetReply) (deviceId : String) : Option Sql :=
  if reply.label == "property" then
    some (.updatePropertyCommandStatus [reply.dbId] reply.productId deviceId reply.status .sent)
  else if reply.label == "action" then
    some (.updateActionInvocationStatus reply.dbId reply.productId deviceId reply.serviceType
      reply.status .sent)
  else none

theorem addresses_iff {reply : SetReply} (h : parseSetReply msg = .ok reply) (queue : Queue)
    (row : CommandRow queue.Body) :
    Addresses msg queue row ↔ reply.label = queue.label ∧ row.id = reply.dbId ∧
      row.productId = reply.productId ∧
      row.deviceId = msg.clientId ∧ ofServiceType msg queue row ∧ row.status = .sent := by
  obtain ⟨id, code, dbId, hpayload, hsplit, hparse, -, hproduct, -⟩ := parseSetReply_ok h
  constructor
  · rintro ⟨⟨id', code', dbId', hpayload', hsplit', hparse'⟩, hproduct', hdevice, hservice, hsent⟩
    obtain ⟨rfl, rfl⟩ := ReplyPayload.response.inj (hpayload.symm.trans hpayload')
    obtain ⟨hlabel, rfl⟩ := Prod.mk.inj (Option.some.inj (hsplit.symm.trans hsplit'))
    exact ⟨hlabel, Option.some.inj (hparse'.symm.trans hparse),
      Option.some.inj (hproduct'.symm.trans hproduct), hdevice, hservice, hsent⟩
  · rintro ⟨hlabel, hid, hproduct', hdevice, hservice, hsent⟩
    exact ⟨⟨id, code, dbId, hpayload, hlabel ▸ hsplit, hid ▸ hparse⟩, hproduct' ▸ hproduct, hdevice,
      hservice, hsent⟩

theorem not_addresses_of_label {reply : SetReply} (h : parseSetReply msg = .ok reply)
    {queue : Queue} (hlabel : reply.label ≠ queue.label) (row : CommandRow queue.Body) :
    ¬Addresses msg queue row := by
  intro haddresses
  exact hlabel ((addresses_iff h queue row).mp haddresses).1

theorem settles_of_statement {reply : SetReply} (h : parseSetReply msg = .ok reply) {stmt : Sql}
    (hstmt : reply.statement msg.clientId = some stmt) (now : OffsetDateTime) (t : Tables) :
    ((stmt.exec now t).2 = t ∧ Unaddressed msg t) ∨ ∃ queue row,
      Settles msg queue row t (stmt.exec now t).2 := by
  obtain ⟨id, code, dbId, hpayload, -, -, hstatus, -, hservice⟩ := parseSetReply_ok h
  unfold SetReply.statement at hstmt
  split_ifs at hstmt with hproperty haction
  · have hlabel : reply.label = "property" := beq_iff_eq.mp hproperty
    obtain rfl := Option.some.inj hstmt
    apply settles_of_update .property
      (fun row => [reply.dbId].contains row.id && CommandTable.ofDevice reply.productId msg.clientId
        row) hpayload
    · intro row
      rw [addresses_iff h]
      simp [hlabel, Queue.label, ofServiceType, CommandTable.ofDevice, and_assoc]
    · intro row other hrow hother
      simp only [Bool.and_eq_true, List.contains_eq_mem, List.mem_singleton,
        decide_eq_true_eq] at hrow hother
      exact hrow.1.trans hother.1.symm
    · rintro (_ | _) hother row
      · exact absurd rfl hother
      · exact not_addresses_of_label h (by simp [hlabel, Queue.label]) row
    · rw [← hstatus]
      rfl
    · rintro (_ | _) hother
      · exact absurd rfl hother
      · rfl
    · rfl
    · rfl
  · have hlabel : reply.label = "action" := beq_iff_eq.mp haction
    obtain rfl := Option.some.inj hstmt
    apply settles_of_update .action
      (fun row => row.id == reply.dbId && CommandTable.ofDevice reply.productId msg.clientId row &&
        row.body.serviceType == reply.serviceType) hpayload
    · intro row
      have hservice' : row.body.serviceType = reply.serviceType ↔
          reply.serviceType = row.body.serviceType := eq_comm
      rw [addresses_iff h]
      simp [hlabel, Queue.label, ofServiceType, CommandTable.ofDevice, hservice, and_assoc,
        hservice']
    · intro row other hrow hother
      simp only [Bool.and_eq_true, beq_iff_eq] at hrow hother
      exact hrow.1.1.trans hother.1.1.symm
    · rintro (_ | _) hother row
      · exact not_addresses_of_label h (by simp [hlabel, Queue.label]) row
      · exact absurd rfl hother
    · rw [← hstatus]
      rfl
    · rintro (_ | _) hother
      · rfl
      · exact absurd rfl hother
    · rfl
    · rfl

end Statement

section Handler

variable {msg : RMqttPublishMessage}

-- Rejected, failed, of an unknown kind, without a row that waits for it, or settling one row.
def ReplyOutcome (msg : RMqttPublishMessage) (reply : Reply) (before after : Tables) : Prop :=
  (∃ error, reply = .error error) ∧ after = before ∨
    reply = .noContent ∧ (after = before ∧ Unaddressed msg before ∨ ∃ queue row,
      Settles msg queue row before after)

theorem serviceSetReply_eq {reply : SetReply} (h : parseSetReply msg = .ok reply) :
    serviceSetReply msg =
      match reply.statement msg.clientId with
      | none => .ret .noContent
      | some stmt => (query stmt).bind fun answer =>
          match answer with
          | .error _ => .ret (.error databaseError)
          | .ok _ => .ret .noContent := by
  unfold serviceSetReply SetReply.statement
  simp only [h]
  split_ifs
  · apply congrArg (Prog.call _)
    funext answer
    cases answer <;> rfl
  · apply congrArg (Prog.call _)
    funext answer
    cases answer <;> rfl
  · rfl

theorem unaddressed_of_statement {reply : SetReply} (h : parseSetReply msg = .ok reply)
    (hstmt : reply.statement msg.clientId = none) (t : Tables) : Unaddressed msg t := by
  unfold SetReply.statement at hstmt
  split_ifs at hstmt with hproperty haction
  rintro (_ | _) row -
  · apply not_addresses_of_label h
    exact fun hlabel => hproperty (beq_iff_eq.mpr hlabel)
  · apply not_addresses_of_label h
    exact fun hlabel => haction (beq_iff_eq.mpr hlabel)

theorem serviceSetReply_outcome (msg : RMqttPublishMessage) (w : World) :
    ReplyOutcome msg ((serviceSetReply msg).run sem w).1 w.tables
      ((serviceSetReply msg).run sem w).2.tables := by
  cases hparse : parseSetReply msg with
  | error error =>
      have heq : serviceSetReply msg = .ret (.error error) := by
        unfold serviceSetReply
        rw [hparse]
        rfl
      rw [heq]
      exact .inl ⟨⟨error, rfl⟩, rfl⟩
  | ok reply =>
      rw [serviceSetReply_eq hparse]
      cases hstmt : reply.statement msg.clientId with
      | none => exact .inr ⟨rfl, .inl ⟨rfl, unaddressed_of_statement hparse hstmt w.tables⟩⟩
      | some stmt =>
          simp only [query, Prog.perform_bind, Prog.run_call]
          cases hfault : w.sqlFaults 0 with
          | some error =>
              obtain ⟨hanswer, htables⟩ := sem_sql_fault stmt hfault
              rw [hanswer]
              exact .inl ⟨⟨databaseError, rfl⟩, htables⟩
          | none =>
              obtain ⟨hanswer, htables⟩ := sem_sql_done stmt hfault
              rw [hanswer]
              simp only [Prog.run_ret, htables]
              exact .inr ⟨rfl, settles_of_statement hparse hstmt w.tick.clock w.tables⟩

end Handler

section Run

-- A reply performs one operation, which is its statement.
def ReplyRule (request : Request) (past : List (Event Op.Ans)) (op : Op) : Prop :=
  ∀ msg, request = .serviceSetReply msg → past = [] ∧
    ∃ reply stmt, parseSetReply msg = .ok reply ∧ reply.statement msg.clientId = some stmt ∧
      op = .sql stmt

theorem spec_reply (config : MqttConfig) (fuel : Nat) (request : Request) :
    Prog.Spec (ReplyRule request) (fun _ _ => True) (serve config fuel request) [] := by
  by_cases h : ∃ msg, request = .serviceSetReply msg
  · obtain ⟨msg, rfl⟩ := h
    change Prog.Spec _ _ ((serviceSetReply msg).bind fun reply => .ret (some reply)) []
    cases hparse : parseSetReply msg with
    | error error =>
        unfold serviceSetReply
        rw [hparse]
        trivial
    | ok reply =>
        rw [serviceSetReply_eq hparse]
        cases hstmt : reply.statement msg.clientId with
        | none => trivial
        | some stmt =>
            refine ⟨?_, ?_⟩
            · intro other hother
              obtain rfl := Request.serviceSetReply.inj hother
              exact ⟨rfl, reply, stmt, hparse, hstmt, rfl⟩
            · intro answer
              cases answer <;> trivial
  · have hfree : ∀ past op, ReplyRule request past op := fun _ _ msg hmsg => absurd ⟨msg, hmsg⟩ h
    exact (Prog.uses_true _).spec (fun _ => True) (fun op past _ _ => hfree past op)
      (fun _ _ _ _ _ => trivial) trivial

variable {config : MqttConfig} {fuel : Nat} {moves : List (Move Request)} {start : World}
  {thread : Nat} {served : Thread Request Op.Ans (Option Reply)} {msg : RMqttPublishMessage}

-- Whatever else goes on, the one operation of a reply settles one row at most.
theorem reply_entry (hserved : (commandRun config fuel moves start).threads[thread]? = some served)
    (hrequest : served.request = .serviceSetReply msg) {later earlier : List (Nat × Event Op.Ans)}
    {event : Event Op.Ans} (hlog : (commandRun config fuel moves start).log =
      later ++ (thread, event) :: earlier) :
    Pool.history thread earlier = [] ∧
      AtMostOneRow msg (Pool.replay sem start earlier).tables
        (Pool.replay sem start ((thread, event) :: earlier)).tables := by
  obtain ⟨other, hother, hrule⟩ :=
    Pool.allowed_of_log sem (serve config fuel) (spec_reply config fuel) moves start
    later earlier thread event hlog
  obtain rfl := Option.some.inj (hserved.symm.trans hother)
  obtain ⟨hpast, reply, stmt, hparse, hstmt, hop⟩ := hrule msg hrequest
  refine ⟨hpast, ?_⟩
  have hreplay : Pool.replay sem start ((thread, event) :: earlier) =
      (sem event.1 (Pool.replay sem start earlier)).2 := rfl
  rw [hreplay, hop]
  cases hfault : (Pool.replay sem start earlier).sqlFaults 0 with
  | some error =>
      exact .inl (sem_sql_fault stmt hfault).2
  | none =>
      rw [(sem_sql_done stmt hfault).2]
      rcases settles_of_statement hparse hstmt _ (Pool.replay sem start earlier).tables with
        ⟨hsame, -⟩ | hsettles
      · exact .inl hsame
      · exact .inr hsettles

end Run

-- The correlation id comes back as the row it was made for, and a reply settles at most
-- the row that it names, alone and among any other requests.
theorem reply_correlates :
    (∀ queue : Queue, ∀ id : Int, -2 ^ 63 ≤ id → id < 2 ^ 63 → ∀ params, ∃ dbId,
      splitOnce ':' (commandPayload queue.label id params).id = some (queue.label, dbId) ∧
        parseI64 dbId = some id) ∧
    (∀ msg w, ReplyOutcome msg ((serviceSetReply msg).run sem w).1 w.tables
      ((serviceSetReply msg).run sem w).2.tables) ∧
    (∀ config fuel moves start thread served msg,
      (commandRun config fuel moves start).threads[thread]? = some served →
        served.request = .serviceSetReply msg →
      ∀ later event earlier, (commandRun config fuel moves start).log = later ++ (thread, event) ::
        earlier → Pool.history thread earlier = [] ∧
          AtMostOneRow msg (Pool.replay sem start earlier).tables
            (Pool.replay sem start ((thread, event) :: earlier)).tables) := by
  refine ⟨?_, serviceSetReply_outcome, ?_⟩
  · intro queue id hmin hmax params
    exact ⟨toString id, splitOnce_commandPayload queue id params, parseI64_toString hmin hmax⟩
  · intro config fuel moves start thread served msg hserved hrequest later event earlier hlog
    exact reply_entry hserved hrequest hlog

section Example

def setReply : RMqttPublishMessage :=
  ⟨"d", "p/d/thing/service/property/set_reply", .response "property:1" 200⟩

-- A property command that waits for its reply.
def awaitingReply : World :=
  World.started { Tables.empty with
    propertyCommands := (CommandTable.empty.insert "p" "d" ⟨.null, .oneShot⟩ 0).update
      (fun _ => true) .sent .pending 0 }

theorem reply_correlates_property :
    (∃ dbId, splitOnce ':' (commandPayload "property" 1 .null).id = some ("property", dbId) ∧
      parseI64 dbId = some 1) ∧
    ReplyOutcome setReply ((serviceSetReply setReply).run sem awaitingReply).1 awaitingReply.tables
      ((serviceSetReply setReply).run sem awaitingReply).2.tables ∧
    ∃ event, (commandRun testConfig 1 [.spawn (.serviceSetReply setReply),
      .step 0] awaitingReply).log = [(0, event)] ∧ AtMostOneRow setReply awaitingReply.tables
        (Pool.replay sem awaitingReply [(0, event)]).tables := by
  obtain ⟨hread, houtcome, hrun⟩ := reply_correlates
  refine ⟨hread .property 1 (by decide) (by decide) .null, houtcome setReply awaitingReply, ?_⟩
  have hthreads : (commandRun testConfig 1 [.spawn (.serviceSetReply setReply),
      .step 0] awaitingReply).log.map Prod.fst = [0] := by decide +kernel
  obtain ⟨⟨thread, event⟩, hlog, rfl⟩ := List.map_eq_singleton_iff.mp hthreads
  obtain ⟨program, hserved⟩ :=
    Pool.request_stable sem (serve testConfig 1) [.spawn (.serviceSetReply setReply)]
    [.step 0] awaitingReply 0 _ rfl
  exact ⟨event, hlog,
    (hrun testConfig 1 _ awaitingReply 0 _ setReply hserved rfl [] event [] hlog).2⟩

end Example

end RmqttThings.Commands
