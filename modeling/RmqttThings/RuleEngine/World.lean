import RmqttThings.Effects.Prog
import RmqttThings.Time
import RmqttThings.RuleEngine.Evaluator
import Mathlib.Data.List.AList
import Mathlib.Data.List.Sort
import Mathlib.Tactic.Simps.Basic

namespace RmqttThings.RuleEngine

open Effects

-- A row of `alarm_rule`.
structure AlarmRule where
  id : Int
  productId : String
  name : String
  description : Option String
  triggerType : String
  triggerConfig : Json
  condition : Json
  actions : Json
  enabled : Bool
  throttleMinutes : Int32
  durationMinutes : Int32
  clearCondition : Option Json
  createdAt : OffsetDateTime
  updatedAt : OffsetDateTime

-- The values that the constraint `alarm_status_check` admits.
inductive AlarmStatus where
  | active
  | acknowledged
  | cleared
  deriving DecidableEq

-- A row of `alarm`.
structure AlarmRecord where
  id : Int
  ruleId : Int
  ruleName : String
  productId : String
  deviceId : String
  level : Int16
  message : Option String
  triggerValue : Option Json
  acknowledged : Bool
  status : AlarmStatus
  webhookStatus : Option Int16
  triggerType : String
  webhookRetriesLeft : Int16
  webhookNextRetryAt : Option OffsetDateTime
  createdAt : OffsetDateTime
  clearedAt : Option OffsetDateTime

structure CreateAlarmRuleRequest where
  productId : String
  name : String
  description : Option String
  triggerType : String
  triggerConfig : Json
  condition : Json
  actions : Json
  throttleMinutes : Int32
  durationMinutes : Int32
  clearCondition : Option Json

-- `clearCondition` is `some none` for an explicit null and `none` when it is left alone.
structure UpdateAlarmRuleRequest where
  name : Option String
  description : Option String
  triggerConfig : Option Json
  condition : Option Json
  actions : Option Json
  throttleMinutes : Option Int32
  durationMinutes : Option Int32
  clearCondition : Option (Option Json)

-- The columns that `insert_alarm` binds; the others take their defaults.
structure NewAlarm where
  ruleId : Int
  ruleName : String
  productId : String
  deviceId : String
  level : Int16
  message : Option String
  triggerValue : Option Json
  triggerType : String

-- The statements of `AlarmRepo`, and the product lookup of `create_alarm_rule`.
inductive Sql where
  | createRule (req : CreateAlarmRuleRequest)
  | getRuleById (id : Int)
  | updateRule (id : Int) (req : UpdateAlarmRuleRequest)
  | updateRuleStatus (id : Int) (enabled : Bool)
  | deleteRule (id : Int)
  | queryEnabledRulesByProduct (productId : String)
  | insertAlarm (alarm : NewAlarm)
  | updateAlarmWebhookStatus (id : Int) (webhookStatus : Int16)
  | updateAlarmWebhookStatusWithRetry (id : Int) (webhookStatus retriesLeft : Int16)
      (nextRetryAt : Option OffsetDateTime)
  | getAlarmById (id : Int)
  | ackAlarm (id : Int)
  | queryActiveAlarmsForClear (ruleId : Int) (deviceId : String)
  | clearAlarm (id : Int)
  | getRuleActions (ruleId : Int)
  | queryPendingRetries
  | decrementRetryAndScheduleNext (id intervalSecs : Int)
  | markWebhookFinalFailure (id : Int)
  | markWebhookSuccess (id : Int)
  | getProductByModelNo (modelNo : String)

-- What a statement answers when it succeeds; updates and deletes answer the
-- number of affected rows.
@[reducible] def Sql.Ans : Sql → Type
  | .createRule _ => Int
  | .getRuleById _ => Option AlarmRule
  | .updateRule _ _ => Nat
  | .updateRuleStatus _ _ => Nat
  | .deleteRule _ => Nat
  | .queryEnabledRulesByProduct _ => List AlarmRule
  | .insertAlarm _ => Int
  | .updateAlarmWebhookStatus _ _ => Unit
  | .updateAlarmWebhookStatusWithRetry _ _ _ _ => Unit
  | .getAlarmById _ => Option AlarmRecord
  | .ackAlarm _ => Nat
  | .queryActiveAlarmsForClear _ _ => List AlarmRecord
  | .clearAlarm _ => Nat
  | .getRuleActions _ => Option Json
  | .queryPendingRetries => List AlarmRecord
  | .decrementRetryAndScheduleNext _ _ => Option Int16
  | .markWebhookFinalFailure _ => Unit
  | .markWebhookSuccess _ => Unit
  | .getProductByModelNo _ => Option String

structure Tables where
  rules : List AlarmRule
  nextRuleId : Int
  alarms : List AlarmRecord
  nextAlarmId : Int
  products : List String

-- The identity columns count from 1.
def Tables.empty : Tables where
  rules := []
  nextRuleId := 1
  alarms := []
  nextAlarmId := 1
  products := []

-- `UPDATE … WHERE`: the affected rows are counted and replaced in place.
def updateWhere {α : Type} (rows : List α) (cond : α → Bool) (set : α → α) : Nat × List α :=
  (rows.countP cond, rows.map fun row => if cond row then set row else row)

-- `WHERE product_id = $1 AND enabled = true ORDER BY id`.
def enabledRules (productId : String) (rules : List AlarmRule) : List AlarmRule :=
  (rules.filter fun rule => rule.productId == productId && rule.enabled).insertionSort
    fun a b => a.id ≤ b.id

def CreateAlarmRuleRequest.toRule (req : CreateAlarmRuleRequest) (id : Int) (now : OffsetDateTime) :
    AlarmRule where
  id := id
  productId := req.productId
  name := req.name
  description := req.description
  triggerType := req.triggerType
  triggerConfig := req.triggerConfig
  condition := req.condition
  actions := req.actions
  enabled := true
  throttleMinutes := req.throttleMinutes
  durationMinutes := req.durationMinutes
  clearCondition := req.clearCondition
  createdAt := now
  updatedAt := now

def UpdateAlarmRuleRequest.set (req : UpdateAlarmRuleRequest) (now : OffsetDateTime)
    (rule : AlarmRule) : AlarmRule :=
  { rule with
    updatedAt := now
    name := req.name.getD rule.name
    description := req.description.or rule.description
    triggerConfig := req.triggerConfig.getD rule.triggerConfig
    condition := req.condition.getD rule.condition
    actions := req.actions.getD rule.actions
    throttleMinutes := req.throttleMinutes.getD rule.throttleMinutes
    durationMinutes := req.durationMinutes.getD rule.durationMinutes
    clearCondition := req.clearCondition.getD rule.clearCondition }

def NewAlarm.toRecord (alarm : NewAlarm) (id : Int) (now : OffsetDateTime) : AlarmRecord where
  id := id
  ruleId := alarm.ruleId
  ruleName := alarm.ruleName
  productId := alarm.productId
  deviceId := alarm.deviceId
  level := alarm.level
  message := alarm.message
  triggerValue := alarm.triggerValue
  acknowledged := false
  status := .active
  webhookStatus := none
  triggerType := alarm.triggerType
  webhookRetriesLeft := 0
  webhookNextRetryAt := none
  createdAt := now
  clearedAt := none

def AlarmRecord.acked (row : AlarmRecord) : AlarmRecord :=
  { row with acknowledged := true, status := .acknowledged }

def AlarmRecord.clearedNow (now : OffsetDateTime) (row : AlarmRecord) : AlarmRecord :=
  { row with status := .cleared, clearedAt := some now, acknowledged := true }

-- `WHERE webhook_status = 1 AND webhook_retries_left > 0 AND webhook_next_retry_at <= NOW()`:
-- a null instant compares to nothing.
def AlarmRecord.retryDue (now : OffsetDateTime) (row : AlarmRecord) : Bool :=
  row.webhookStatus == some 1 && decide (0 < row.webhookRetriesLeft) &&
    row.webhookNextRetryAt.any fun instant => decide (instant ≤ now)

def AlarmRecord.webhookSettled (status : Int16) (row : AlarmRecord) : AlarmRecord :=
  { row with webhookStatus := some status, webhookRetriesLeft := 0, webhookNextRetryAt := none }

def AlarmRecord.retryScheduled (nextRetryAt : OffsetDateTime) (row : AlarmRecord) : AlarmRecord :=
  { row with
    webhookRetriesLeft := row.webhookRetriesLeft - 1
    webhookNextRetryAt := some nextRetryAt }

-- Each statement is atomic; `now` is the database's `NOW()`.
def Sql.exec (now : OffsetDateTime) : (stmt : Sql) → Tables → stmt.Ans × Tables
  | .createRule req, t =>
      (t.nextRuleId, { t with rules := t.rules ++ [req.toRule t.nextRuleId now]
                              nextRuleId := t.nextRuleId + 1 })
  | .getRuleById id, t => (t.rules.find? (·.id == id), t)
  | .updateRule id req, t =>
      let (affected, rules) := updateWhere t.rules (·.id == id) (req.set now)
      (affected, { t with rules := rules })
  | .updateRuleStatus id enabled, t =>
      let (affected, rules) := updateWhere t.rules (·.id == id)
        fun rule => { rule with enabled := enabled, updatedAt := now }
      (affected, { t with rules := rules })
  | .deleteRule id, t =>
      (t.rules.countP (·.id == id), { t with rules := t.rules.filter (·.id != id) })
  | .queryEnabledRulesByProduct productId, t => (enabledRules productId t.rules, t)
  | .insertAlarm alarm, t =>
      (t.nextAlarmId, { t with alarms := t.alarms ++ [alarm.toRecord t.nextAlarmId now]
                               nextAlarmId := t.nextAlarmId + 1 })
  | .updateAlarmWebhookStatus id webhookStatus, t =>
      let (_, alarms) := updateWhere t.alarms (·.id == id)
        fun row => { row with webhookStatus := some webhookStatus }
      ((), { t with alarms := alarms })
  | .updateAlarmWebhookStatusWithRetry id webhookStatus retriesLeft nextRetryAt, t =>
      let (_, alarms) := updateWhere t.alarms (·.id == id) fun row =>
        { row with
          webhookStatus := some webhookStatus
          webhookRetriesLeft := retriesLeft
          webhookNextRetryAt := nextRetryAt }
      ((), { t with alarms := alarms })
  | .getAlarmById id, t => (t.alarms.find? (·.id == id), t)
  | .ackAlarm id, t =>
      let (affected, alarms) := updateWhere t.alarms
        (fun row => row.id == id && row.status == .active) AlarmRecord.acked
      (affected, { t with alarms := alarms })
  | .queryActiveAlarmsForClear ruleId deviceId, t =>
      (t.alarms.filter fun row => row.ruleId == ruleId && row.deviceId == deviceId &&
        (row.status == .active || row.status == .acknowledged), t)
  | .clearAlarm id, t =>
      let (affected, alarms) := updateWhere t.alarms
        (fun row => row.id == id && row.status != .cleared) (AlarmRecord.clearedNow now)
      (affected, { t with alarms := alarms })
  | .getRuleActions ruleId, t => ((t.rules.find? (·.id == ruleId)).map (·.actions), t)
  | .queryPendingRetries, t => (t.alarms.filter (·.retryDue now), t)
  | .decrementRetryAndScheduleNext id intervalSecs, t =>
      let retryable := fun row : AlarmRecord => row.id == id && decide (0 < row.webhookRetriesLeft)
      let (_, alarms) := updateWhere t.alarms retryable
        (AlarmRecord.retryScheduled (now + intervalSecs * nanosPerSecond))
      ((t.alarms.find? retryable).map (·.webhookRetriesLeft - 1), { t with alarms := alarms })
  | .markWebhookFinalFailure id, t =>
      let (_, alarms) := updateWhere t.alarms (·.id == id) (AlarmRecord.webhookSettled 2)
      ((), { t with alarms := alarms })
  | .markWebhookSuccess id, t =>
      let (_, alarms) := updateWhere t.alarms (·.id == id) (AlarmRecord.webhookSettled 0)
      ((), { t with alarms := alarms })
  | .getProductByModelNo modelNo, t => (t.products.find? (· == modelNo), t)

-- What can go wrong with one Redis command. A garbled answer is a stored value
-- that something else has overwritten.
inductive RedisFault where
  | none
  | error (text : String)
  | garbled (text : String)

-- The shared objects of the process and the services behind it. The four streams
-- are the environment's choices: how long each operation takes, and which
-- statements, Redis commands and webhook calls fail.
structure World where
  clock : OffsetDateTime
  delays : Nat → Nat
  sqlFaults : Nat → Option String
  redisFaults : Nat → RedisFault
  webhooks : Nat → Option String
  maps : Nat → String → Option (List AlarmRule)
  nextMap : Nat
  dedup : String → Option OffsetDateTime
  durationTracking : String → Option OffsetDateTime
  redis : AList fun _ : String => String × OffsetDateTime
  tables : Tables

-- The `rules` maps of the `RuleCache` values are objects of their own, named by a
-- number: a clone of a `DashMap` is a new map with the same contents.
inductive Op where
  | nowUtc
  | mapClone (map : Nat)
  | mapGet (map : Nat) (key : String)
  | mapInsert (map : Nat) (key : String) (rules : List AlarmRule)
  | mapRemove (map : Nat) (key : String)
  | dedupGet (key : String)
  | dedupInsert (key : String) (instant : OffsetDateTime)
  | dedupRetain (keep : String → Bool)
  | durationGet (key : String)
  | durationInsert (key : String) (instant : OffsetDateTime)
  | durationRemove (key : String)
  | durationRetain (keep : String → Bool)
  | redisConnect
  | redisGet (key : String)
  | redisSet (key value : String) (ttlSecs : Int)
  | redisDel (keys : List String)
  | redisScan (pattern : String)
  | sql (stmt : Sql)
  | sendWebhook (url : String) (payload : Json)

@[reducible] def Op.Ans : Op → Type
  | .nowUtc => OffsetDateTime
  | .mapClone _ => Nat
  | .mapGet _ _ => Option (List AlarmRule)
  | .mapInsert _ _ _ => Unit
  | .mapRemove _ _ => Unit
  | .dedupGet _ => Option OffsetDateTime
  | .dedupInsert _ _ => Unit
  | .dedupRetain _ => Unit
  | .durationGet _ => Option OffsetDateTime
  | .durationInsert _ _ => Unit
  | .durationRemove _ => Unit
  | .durationRetain _ => Unit
  | .redisConnect => Except String Unit
  | .redisGet _ => Except String (Option String)
  | .redisSet _ _ _ => Except String Unit
  | .redisDel _ => Except String Unit
  | .redisScan _ => Except String (List (List String))
  | .sql stmt => Except String stmt.Ans
  | .sendWebhook _ _ => Except String Unit

abbrev M := Prog Op.Ans

-- Redis glob patterns, as far as the patterns of the code use them.
def globMatch : List Char → List Char → Bool
  | [], text => text.isEmpty
  | '*' :: rest, text => text.tails.any (globMatch rest)
  | char :: rest, text =>
      match text with
      | [] => false
      | first :: text => char == first && globMatch rest text

namespace World

-- The process has just started, in an environment without delays and faults.
@[simps -fullyApplied] def started (tables : Tables) : World where
  clock := 0
  delays := fun _ => 0
  sqlFaults := fun _ => none
  redisFaults := fun _ => .none
  webhooks := fun _ => none
  maps := fun _ _ => none
  nextMap := 1
  dedup := fun _ => none
  durationTracking := fun _ => none
  redis := ∅
  tables := tables

@[simps -fullyApplied] def arrive (w : World) (now : OffsetDateTime) : World :=
  { w with clock := now }

@[simps -fullyApplied] def withMaps (w : World) (maps : Nat → String → Option (List AlarmRule)) :
    World :=
  { w with maps := maps }

@[simps -fullyApplied] def withDedup (w : World) (dedup : String → Option OffsetDateTime) : World :=
  { w with dedup := dedup }

@[simps -fullyApplied] def withDurationTracking (w : World)
    (tracking : String → Option OffsetDateTime) :
    World :=
  { w with durationTracking := tracking }

@[simps -fullyApplied] def withRedis (w : World)
    (redis : AList fun _ : String => String × OffsetDateTime) :
    World :=
  { w with redis := redis }

@[simps -fullyApplied] def withTables (w : World) (tables : Tables) : World :=
  { w with tables := tables }

@[simps -fullyApplied] def popSql (w : World) : World :=
  { w with sqlFaults := fun n => w.sqlFaults (n + 1) }

@[simps -fullyApplied] def popRedis (w : World) : World :=
  { w with redisFaults := fun n => w.redisFaults (n + 1) }

@[simps -fullyApplied] def popWebhook (w : World) : World :=
  { w with webhooks := fun n => w.webhooks (n + 1) }

-- Any time may pass before an operation takes effect.
@[simps -fullyApplied] def tick (w : World) : World :=
  { w with clock := w.clock + w.delays 0, delays := fun n => w.delays (n + 1) }

-- A key that has reached its expiry is absent.
def redisLookup (w : World) (key : String) : Option String :=
  match w.redis.lookup key with
  | some (value, expiry) => if w.clock < expiry then some value else none
  | none => none

-- A Redis command that fails has no effect.
def redisCommand {α : Type} (w : World) (garbled : String → Except String α)
    (ok : World → α × World) : Except String α × World :=
  match w.redisFaults 0 with
  | .error text => (.error text, w.popRedis)
  | .garbled text => (garbled text, w.popRedis)
  | .none => ((.ok (ok w.popRedis).1), (ok w.popRedis).2)

end World

def Op.exec : (op : Op) → World → op.Ans × World
  | .nowUtc, w => (w.clock, w)
  | .mapClone map, w =>
      (w.nextMap, { w with maps := Function.update w.maps w.nextMap (w.maps map)
                           nextMap := w.nextMap + 1 })
  | .mapGet map key, w => (w.maps map key, w)
  | .mapInsert map key rules, w =>
      ((), w.withMaps (Function.update w.maps map (Function.update (w.maps map) key (some rules))))
  | .mapRemove map key, w =>
      ((), w.withMaps (Function.update w.maps map (Function.update (w.maps map) key none)))
  | .dedupGet key, w => (w.dedup key, w)
  | .dedupInsert key instant, w => ((), w.withDedup (Function.update w.dedup key (some instant)))
  | .dedupRetain keep, w => ((), w.withDedup fun key => if keep key then w.dedup key else none)
  | .durationGet key, w => (w.durationTracking key, w)
  | .durationInsert key instant, w =>
      ((), w.withDurationTracking (Function.update w.durationTracking key (some instant)))
  | .durationRemove key, w =>
      ((), w.withDurationTracking (Function.update w.durationTracking key none))
  | .durationRetain keep, w =>
      ((), w.withDurationTracking fun key => if keep key then w.durationTracking key else none)
  | .redisConnect, w => w.redisCommand (fun _ => .ok ()) fun w => ((), w)
  | .redisGet key, w => w.redisCommand (fun text => .ok (some text)) fun w => (w.redisLookup key, w)
  | .redisSet key value ttlSecs, w => w.redisCommand .error fun w =>
      ((), w.withRedis (w.redis.insert key (value, w.clock + ttlSecs * nanosPerSecond)))
  | .redisDel keys, w => w.redisCommand .error fun w =>
      ((), w.withRedis (keys.foldl (fun entries key => entries.erase key) w.redis))
  | .redisScan pattern, w => w.redisCommand .error fun w =>
      ([w.redis.keys.filter fun key => (w.redisLookup key).isSome &&
        globMatch pattern.toList key.toList], w)
  | .sql stmt, w =>
      match w.sqlFaults 0 with
      | some error => (.error error, w.popSql)
      | none =>
          (.ok (stmt.exec w.clock w.tables).1, w.popSql.withTables (stmt.exec w.clock w.tables).2)
  | .sendWebhook _ _, w =>
      match w.webhooks 0 with
      | some error => (.error error, w.popWebhook)
      | none => (.ok (), w.popWebhook)

def sem (op : Op) (w : World) : op.Ans × World := op.exec w.tick

def nowUtc : M OffsetDateTime := Prog.perform Op.nowUtc

def query (stmt : Sql) : M (Except String stmt.Ans) := Prog.perform (Op.sql stmt)

end RmqttThings.RuleEngine
