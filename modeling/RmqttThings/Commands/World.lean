import RmqttThings.Effects.Prog
import RmqttThings.Commands.Table
import RmqttThings.Shadow.Desired
import Mathlib.Tactic.Simps.Basic

namespace RmqttThings.Commands

open Effects Shadow

inductive CommandSource where
  | oneShot
  | desiredDelta
  deriving DecidableEq

-- The own columns of `property_command`.
structure PropertyCommand where
  command : Json
  source : CommandSource

-- The own columns of `action_invocation`.
structure ActionInvocation where
  serviceType : String
  params : Json

-- A row of `property_desired`.
structure PropertyDesired where
  productId : String
  deviceId : String
  desired : Json
  updatedTime : OffsetDateTime

-- A row of `property_latest`.
structure PropertyLatest where
  productId : String
  deviceId : String
  properties : Json
  updatedTime : OffsetDateTime

-- The tables that the statements below read or write. `property_desired` and
-- `property_latest` have the product and the device as their primary key.
structure Tables where
  propertyCommands : CommandTable PropertyCommand
  actionInvocations : CommandTable ActionInvocation
  propertyDesired : String × String → Option PropertyDesired
  propertyLatest : String × String → Option PropertyLatest

def Tables.empty : Tables where
  propertyCommands := .empty
  actionInvocations := .empty
  propertyDesired := fun _ => none
  propertyLatest := fun _ => none

-- The statements of `DatabaseService` around commands and the shadow. The merge of
-- `upsert_property_desired` is a transaction that holds the row lock.
inductive Sql where
  | insertPropertyCommand (productId deviceId : String) (command : Json) (source : CommandSource)
  | updatePropertyCommandStatus (ids : List Int) (productId deviceId : String)
      (status prevStatus : CommandStatus)
  | updateSentCommandsToFailed (ids : List Int)
  | updatePendingCommandsToSent (productId deviceId : String)
  | deletePropertyCommands (ids : List Int)
  | insertActionInvocation (productId deviceId serviceType : String) (params : Json)
  | claimNextPendingAction (productId deviceId : String)
  | updateActionInvocationStatus (id : Int) (productId deviceId serviceType : String)
      (status prevStatus : CommandStatus)
  | deleteActionInvocations (ids : List Int)
  | upsertDeviceStatusConnect (productId deviceId : String)
  | upsertPropertyDesired (productId deviceId : String) (patch : JsonMap)
  | getPropertyLatestOne (productId deviceId : String)
  | upsertPropertyLatest (productId deviceId : String) (properties : JsonMap) (time : String)
      (timestamp : OffsetDateTime)

@[reducible] def Sql.Ans : Sql → Type
  | .insertPropertyCommand _ _ _ _ => Int
  | .updatePropertyCommandStatus _ _ _ _ _ => Unit
  | .updateSentCommandsToFailed _ => Unit
  | .updatePendingCommandsToSent _ _ => List (CommandRow PropertyCommand)
  | .deletePropertyCommands _ => Nat
  | .insertActionInvocation _ _ _ _ => Int
  | .claimNextPendingAction _ _ => Option (CommandRow ActionInvocation)
  | .updateActionInvocationStatus _ _ _ _ _ _ => Nat
  | .deleteActionInvocations _ => Nat
  | .upsertDeviceStatusConnect _ _ => Unit
  | .upsertPropertyDesired _ _ _ => PropertyDesired
  | .getPropertyLatestOne _ _ => Option PropertyLatest
  | .upsertPropertyLatest _ _ _ _ _ => Unit

-- `as_object().cloned().unwrap_or_default()`.
def objectOrDefault (value : Json) : JsonMap := (JsonMap.ofJson value).getD .empty

-- The document that the merge finds: the placeholder when there was no row.
def Tables.desiredOf (t : Tables) (productId deviceId : String) : JsonMap :=
  ((t.propertyDesired (productId, deviceId)).map (objectOrDefault ·.desired)).getD .empty

-- The reported snapshot that a delta is computed against.
def reportedMap (row : Option PropertyLatest) : JsonMap :=
  (row.map (objectOrDefault ·.properties)).getD .empty

def Tables.reportedOf (t : Tables) (productId deviceId : String) : JsonMap :=
  reportedMap (t.propertyLatest (productId, deviceId))

-- The row of `upsert_property_latest`: the instant is the report's own, in its text form
-- beside each value and as it is in the column.
def latestRow (productId deviceId : String) (properties : JsonMap) (time : String)
    (timestamp : OffsetDateTime) (old : Option PropertyLatest) : PropertyLatest :=
  let new : Json := .object (properties.fields.map (stamped time))
  ⟨productId, deviceId, (old.map (·.properties)).elim new (concat · new), timestamp⟩

-- A claimed row as `RETURNING` shows it.
def claimed {β : Type} (now : OffsetDateTime) (row : CommandRow β) : CommandRow β :=
  row.moved .sent now

-- Each statement is atomic; `now` is the database's `CURRENT_TIMESTAMP`.
def Sql.exec (now : OffsetDateTime) : (stmt : Sql) → Tables → stmt.Ans × Tables
  | .insertPropertyCommand productId deviceId command source, t =>
      (t.propertyCommands.nextId,
        { t with propertyCommands := t.propertyCommands.insert productId deviceId ⟨command,
          source⟩ now })
  | .updatePropertyCommandStatus ids productId deviceId status prevStatus, t =>
      let cond := fun row => ids.contains row.id && CommandTable.ofDevice productId deviceId row
      ((), { t with propertyCommands := t.propertyCommands.update cond status prevStatus now })
  | .updateSentCommandsToFailed ids, t =>
      ((), { t with propertyCommands :=
        t.propertyCommands.update (ids.contains ·.id) .failed .sent now })
  | .updatePendingCommandsToSent productId deviceId, t =>
      let cond := CommandTable.ofDevice productId deviceId
      ((t.propertyCommands.queue productId deviceId).map (claimed now),
        { t with propertyCommands := t.propertyCommands.update cond .sent .pending now })
  | .deletePropertyCommands ids, t =>
      (t.propertyCommands.affected (ids.contains ·.id) .pending,
        { t with propertyCommands :=
          t.propertyCommands.update (ids.contains ·.id) .deleted .pending now })
  | .insertActionInvocation productId deviceId serviceType params, t =>
      (t.actionInvocations.nextId,
        { t with actionInvocations := t.actionInvocations.insert productId deviceId ⟨serviceType,
          params⟩ now })
  | .claimNextPendingAction productId deviceId, t =>
      match t.actionInvocations.queue productId deviceId with
      | [] => (none, t)
      | row :: _ => (some (claimed now row),
          { t with actionInvocations :=
            t.actionInvocations.update (·.id == row.id) .sent .pending now })
  | .updateActionInvocationStatus id productId deviceId serviceType status prevStatus, t =>
      let cond := fun row : CommandRow ActionInvocation => row.id == id &&
        CommandTable.ofDevice productId deviceId row && row.body.serviceType == serviceType
      (t.actionInvocations.affected cond prevStatus,
        { t with actionInvocations := t.actionInvocations.update cond status prevStatus now })
  | .deleteActionInvocations ids, t =>
      (t.actionInvocations.affected (ids.contains ·.id) .pending,
        { t with
          actionInvocations :=
            t.actionInvocations.update (ids.contains ·.id) .deleted .pending now })
  | .upsertDeviceStatusConnect _ _, t => ((), t)
  | .upsertPropertyDesired productId deviceId patch, t =>
      let row : PropertyDesired :=
        ⟨productId, deviceId, (mergeDesired (t.desiredOf productId deviceId) patch).toJson, now⟩
      (row, { t with
        propertyDesired := Function.update t.propertyDesired (productId, deviceId) (some row) })
  | .getPropertyLatestOne productId deviceId, t => (t.propertyLatest (productId, deviceId), t)
  | .upsertPropertyLatest productId deviceId properties time timestamp, t =>
      let row :=
        latestRow productId deviceId properties time timestamp
          (t.propertyLatest (productId, deviceId))
      ((), { t with
        propertyLatest := Function.update t.propertyLatest (productId, deviceId) (some row) })

inductive AckStatus where
  | no
  | yes
  deriving DecidableEq

structure MqttPayload where
  id : String
  ack : AckStatus
  params : Option Json

-- `payload` is sent as JSON text; writing it out cannot fail.
structure PublishRequest where
  topic : String
  clientid : String
  payload : MqttPayload
  encoding : Option String
  qos : Option UInt8
  retain : Option Bool

-- The topic filter is the only field of a subscription that the code reads.
structure Subscription where
  topic : String

-- The answer of the broker's HTTP interface, or the error of a request that got none.
inductive HttpReply (β : Type) where
  | failed (error : String)
  | response (status : Nat) (body : β)

namespace HttpReply

def isSuccess {β : Type} : HttpReply β → Bool
  | failed _ => false
  | response status _ => 200 ≤ status && status ≤ 299

end HttpReply

-- The database, the broker and the clock. The streams are the environment's choices:
-- how long each operation takes, which statements fail, how the broker answers a
-- publish request, and what it answers about subscriptions (`none` is a body that is
-- not a list of subscriptions).
structure World where
  clock : OffsetDateTime
  delays : Nat → Nat
  sqlFaults : Nat → Option String
  publishes : Nat → HttpReply Unit
  subscriptions : Nat → HttpReply (Option (List Subscription))
  tables : Tables

inductive Op where
  | sql (stmt : Sql)
  | postPublish (request : PublishRequest)
  | getSubscriptions (clientId : String)

@[reducible] def Op.Ans : Op → Type
  | .sql stmt => Except String stmt.Ans
  | .postPublish _ => HttpReply Unit
  | .getSubscriptions _ => HttpReply (Option (List Subscription))

abbrev M := Prog Op.Ans

namespace World

-- The broker accepts everything, nobody is subscribed, and nothing fails.
@[simps -fullyApplied] def started (tables : Tables) : World where
  clock := 0
  delays := fun _ => 0
  sqlFaults := fun _ => none
  publishes := fun _ => .response 200 ()
  subscriptions := fun _ => .response 200 (some [])
  tables := tables

@[simps -fullyApplied] def withTables (w : World) (tables : Tables) : World :=
  { w with tables := tables }

@[simps -fullyApplied] def popSql (w : World) : World :=
  { w with sqlFaults := fun n => w.sqlFaults (n + 1) }

@[simps -fullyApplied] def popPublish (w : World) : World :=
  { w with publishes := fun n => w.publishes (n + 1) }

@[simps -fullyApplied] def popSubscriptions (w : World) : World :=
  { w with subscriptions := fun n => w.subscriptions (n + 1) }

-- Any time may pass before an operation takes effect.
@[simps -fullyApplied] def tick (w : World) : World :=
  { w with clock := w.clock + w.delays 0, delays := fun n => w.delays (n + 1) }

end World

-- A statement that fails has no effect.
def Op.exec : (op : Op) → World → op.Ans × World
  | .sql stmt, w =>
      match w.sqlFaults 0 with
      | some error => (.error error, w.popSql)
      | none =>
          (.ok (stmt.exec w.clock w.tables).1, w.popSql.withTables (stmt.exec w.clock w.tables).2)
  | .postPublish _, w => (w.publishes 0, w.popPublish)
  | .getSubscriptions _, w => (w.subscriptions 0, w.popSubscriptions)

def sem (op : Op) (w : World) : op.Ans × World := op.exec w.tick

def query (stmt : Sql) : M (Except String stmt.Ans) := Prog.perform (Op.sql stmt)

@[simp] theorem sem_sql_tables (stmt : Sql) (w : World) :
    (sem (.sql stmt) w).2.tables =
      if (w.sqlFaults 0).isSome then w.tables else (stmt.exec w.tick.clock w.tables).2 := by
  simp only [sem, Op.exec, World.tick_sqlFaults, World.tick_tables]
  cases w.sqlFaults 0 <;> rfl

-- A statement that succeeds has been executed on the tables of that moment.
theorem sem_sql_ok {stmt : Sql} {w : World} {answer : stmt.Ans}
    (h : (sem (.sql stmt) w).1 = .ok answer) :
    answer = (stmt.exec w.tick.clock w.tables).1 ∧
      (sem (.sql stmt) w).2.tables = (stmt.exec w.tick.clock w.tables).2 := by
  cases hfault : w.sqlFaults 0 with
  | some error => simp [sem, Op.exec, hfault] at h
  | none =>
      simp only [sem, Op.exec, World.tick_sqlFaults, hfault, Except.ok.injEq] at h ⊢
      exact ⟨h.symm, rfl⟩

@[simp] theorem sem_postPublish_tables (request : PublishRequest) (w : World) :
    (sem (.postPublish request) w).2.tables = w.tables := rfl

@[simp] theorem sem_getSubscriptions_tables (clientId : String) (w : World) :
    (sem (.getSubscriptions clientId) w).2.tables = w.tables := rfl

end RmqttThings.Commands
