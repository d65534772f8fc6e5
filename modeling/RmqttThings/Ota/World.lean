import RmqttThings.Effects.Prog
import RmqttThings.Commands.World

namespace RmqttThings.Ota

open Effects
open Commands (HttpReply AckStatus)

-- A row of `device_versions`; its unique index has the product, the device and the key.
structure DeviceVersion where
  version : Int32
  lastUpdatedAt : Option OffsetDateTime

abbrev VersionKey := String × String × String

-- A row of `ota_versions`.
structure OtaVersion where
  id : Int
  productId : String
  key : String
  version : Int32
  maxVersion : Option Int32
  minVersion : Int32
  fileKey : String
  log : Option Json
  deviceIds : Option (List String)
  binLength : Int64
  binMd5 : String
  releasedAt : OffsetDateTime
  status : Int16

structure Tables where
  deviceVersions : VersionKey → Option DeviceVersion
  otaVersions : List OtaVersion
  nextId : Int

def Tables.empty : Tables := ⟨fun _ => none, [], 1⟩

def tenMinutes : Int := 10 * nanosPerMinute

-- `ON CONFLICT .. DO UPDATE .. WHERE`: another version, and the last change is old enough.
def DeviceVersion.moves (row : DeviceVersion) (version : Int32) (now : OffsetDateTime) : Bool :=
  row.version != version && row.lastUpdatedAt.all fun last => decide (last < now - tenMinutes)

def upsertRow (old : Option DeviceVersion) (version : Int32) (now : OffsetDateTime) :
    DeviceVersion :=
  match old with
  | none => ⟨version, some now⟩
  | some row => if row.moves version now then ⟨version, some now⟩ else row

-- The conditions of `get_ota_update`.
def OtaVersion.applies (now : OffsetDateTime) (productId deviceId key : String) (version : Int32)
    (row : OtaVersion) :
    Bool :=
  row.productId == productId && row.key == key && row.status == 0 && decide (row.minVersion ≤
    version) &&
    row.maxVersion.all (fun max => decide (version < max)) && decide (row.releasedAt ≤ now) &&
    row.deviceIds.all (·.contains deviceId)

-- `ORDER BY version DESC LIMIT 1`. The unique index on the rows with status 0 leaves no ties.
def newest : List OtaVersion → Option OtaVersion
  | [] => none
  | row :: rows =>
      match newest rows with
      | none => some row
      | some best => if best.version < row.version then some row else some best

def Tables.otaUpdate (t : Tables) (now : OffsetDateTime) (productId deviceId key : String)
    (version : Int32) :
    Option OtaVersion :=
  newest (t.otaVersions.filter (OtaVersion.applies now productId deviceId key version))

-- What `create_ota_version` binds.
structure NewOtaVersion where
  productId : String
  key : String
  version : Int32
  maxVersion : Option Int32
  minVersion : Int32
  fileKey : String
  log : Option Json
  deviceIds : Option (List String)
  binLength : Int64
  binMd5 : String

def NewOtaVersion.toRow (new : NewOtaVersion) (id : Int) (now : OffsetDateTime) : OtaVersion where
  id := id
  productId := new.productId
  key := new.key
  version := new.version
  maxVersion := new.maxVersion
  minVersion := new.minVersion
  fileKey := new.fileKey
  log := new.log
  deviceIds := new.deviceIds
  binLength := new.binLength
  binMd5 := new.binMd5
  releasedAt := now
  status := 0

-- The columns that the dynamically built statement of `update_ota_version` sets.
structure OtaVersionChange where
  minVersion : Option Int32
  maxVersion : Option Int32
  fileKey : Option String
  log : Option Json
  deviceIds : Option (List String)
  binLength : Option Int64
  binMd5 : Option String

def OtaVersionChange.apply (change : OtaVersionChange) (row : OtaVersion) : OtaVersion :=
  { row with
    minVersion := change.minVersion.getD row.minVersion
    maxVersion := change.maxVersion.or row.maxVersion
    fileKey := change.fileKey.getD row.fileKey
    log := change.log.or row.log
    deviceIds := change.deviceIds.or row.deviceIds
    binLength := change.binLength.getD row.binLength
    binMd5 := change.binMd5.getD row.binMd5 }

inductive Sql where
  | upsertDeviceVersion (productId deviceId key : String) (version : Int32) (now : OffsetDateTime)
  | getOtaUpdate (productId deviceId key : String) (version : Int32)
  | createOtaVersion (new : NewOtaVersion)
  | updateOtaVersion (id : Int) (change : OtaVersionChange)
  | deleteOtaVersion (id : Int)

@[reducible] def Sql.Ans : Sql → Type
  | .upsertDeviceVersion _ _ _ _ _ => Unit
  | .getOtaUpdate _ _ _ _ => Option OtaVersion
  | .createOtaVersion _ => Int
  | .updateOtaVersion _ _ => Nat
  | .deleteOtaVersion _ => Nat

def duplicateKey : String :=
  "duplicate key value violates unique constraint \"ota_versions_product_id_key_version_idx\""

def Tables.hasVersion (t : Tables) (new : NewOtaVersion) : Bool :=
  t.otaVersions.any fun row =>
    row.status == 0 && row.productId == new.productId && row.key == new.key &&
      row.version == new.version

-- `UPDATE ota_versions .. WHERE id = $n`: the rows that it affects, and the table.
def Tables.updateById (t : Tables) (id : Int) (set : OtaVersion → OtaVersion) : Nat × Tables :=
  (t.otaVersions.countP (·.id == id),
    { t with otaVersions := t.otaVersions.map fun row => if row.id == id then set row else row })

-- Each statement is atomic; `now` is the database's `NOW()`.
def Sql.exec (now : OffsetDateTime) : (stmt : Sql) → Tables → Except String stmt.Ans × Tables
  | .upsertDeviceVersion productId deviceId key version instant, t =>
      let row := upsertRow (t.deviceVersions (productId, deviceId, key)) version instant
      (.ok (), { t with
        deviceVersions := Function.update t.deviceVersions (productId, deviceId, key) (some row) })
  | .getOtaUpdate productId deviceId key version, t =>
      (.ok (t.otaUpdate now productId deviceId key version), t)
  | .createOtaVersion new, t =>
      if t.hasVersion new then (.error duplicateKey, t)
      else (.ok t.nextId, { t with
        otaVersions := t.otaVersions ++ [new.toRow t.nextId now]
        nextId := t.nextId + 1 })
  | .updateOtaVersion id change, t =>
      (.ok (t.updateById id change.apply).1, (t.updateById id change.apply).2)
  | .deleteOtaVersion id, t =>
      let set := fun row : OtaVersion => { row with status := 1 }
      (.ok (t.updateById id set).1, (t.updateById id set).2)

structure UpgradeParam where
  key : String
  fileUrl : String
  version : String
  log : Option Json

-- The JSON text of a publication: an answer to a report, or a push of upgrades.
inductive Payload where
  | response (id : String) (code : Int32)
  | upgrade (id : String) (ack : AckStatus) (params : List UpgradeParam)

structure PublishRequest where
  topic : String
  clientid : String
  payload : Payload
  encoding : Option String
  qos : Option UInt8
  retain : Option Bool

-- The database, the broker and the clock. The streams are the environment's choices: how
-- long each operation takes, which statements fail, and how the broker answers.
structure World where
  clock : OffsetDateTime
  delays : Nat → Nat
  sqlFaults : Nat → Option String
  publishes : Nat → HttpReply Unit
  tables : Tables

inductive Op where
  | nowUtc
  | sql (stmt : Sql)
  | postPublish (request : PublishRequest)

@[reducible] def Op.Ans : Op → Type
  | .nowUtc => OffsetDateTime
  | .sql stmt => Except String stmt.Ans
  | .postPublish _ => HttpReply Unit

abbrev M := Prog Op.Ans

abbrev Past := List (Event Op.Ans)

namespace World

-- Nothing fails and no time passes.
def started (tables : Tables) : World where
  clock := 0
  delays := fun _ => 0
  sqlFaults := fun _ => none
  publishes := fun _ => .response 200 ()
  tables := tables

@[simps -fullyApplied] def withTables (w : World) (tables : Tables) : World :=
  { w with tables := tables }

@[simps -fullyApplied] def popSql (w : World) : World :=
  { w with sqlFaults := fun n => w.sqlFaults (n + 1) }

@[simps -fullyApplied] def popPublish (w : World) : World :=
  { w with publishes := fun n => w.publishes (n + 1) }

-- Any time may pass before an operation takes effect.
@[simps -fullyApplied] def tick (w : World) : World :=
  { w with clock := w.clock + w.delays 0, delays := fun n => w.delays (n + 1) }

end World

-- A statement that fails has no effect.
def Op.exec : (op : Op) → World → op.Ans × World
  | .nowUtc, w => (w.clock, w)
  | .sql stmt, w =>
      match w.sqlFaults 0 with
      | some error => (.error error, w.popSql)
      | none => ((stmt.exec w.clock w.tables).1, w.popSql.withTables (stmt.exec w.clock w.tables).2)
  | .postPublish _, w => (w.publishes 0, w.popPublish)

def sem (op : Op) (w : World) : op.Ans × World := op.exec w.tick

def nowUtc : M OffsetDateTime := Prog.perform Op.nowUtc

def query (stmt : Sql) : M (Except String stmt.Ans) := Prog.perform (Op.sql stmt)

section Steps

variable (op : Op) (w : World)

@[simp] theorem sem_clock : (sem op w).2.clock = w.clock + w.delays 0 := by
  cases op with
  | sql stmt =>
      simp only [sem, Op.exec]
      split <;> rfl
  | _ => rfl

@[simp] theorem sem_delays : (sem op w).2.delays = fun n => w.delays (n + 1) := by
  cases op with
  | sql stmt =>
      simp only [sem, Op.exec]
      split <;> rfl
  | _ => rfl

@[simp] theorem sem_nowUtc : sem .nowUtc w = (w.clock + w.delays 0, w.tick) := rfl

@[simp] theorem sem_postPublish_tables (request : PublishRequest) :
    (sem (.postPublish request) w).2.tables = w.tables :=
  rfl

variable {w} {stmt : Sql}

-- A statement that succeeds has been executed on the tables of that moment.
theorem sem_sql_ok {answer : stmt.Ans} (h : (sem (.sql stmt) w).1 = .ok answer) :
    (stmt.exec (w.clock + w.delays 0) w.tables).1 = .ok answer ∧
      (sem (.sql stmt) w).2.tables = (stmt.exec (w.clock + w.delays 0) w.tables).2 := by
  cases hfault : w.sqlFaults 0 with
  | some error => simp [sem, Op.exec, hfault] at h
  | none =>
      simp only [sem, Op.exec, World.tick_sqlFaults, hfault] at h ⊢
      exact ⟨h, rfl⟩

theorem sem_sql_error {error : String} (h : (sem (.sql stmt) w).1 = .error error) :
    (sem (.sql stmt) w).2.tables = w.tables := by
  cases hfault : w.sqlFaults 0 with
  | some text =>
      simp only [sem, Op.exec, World.tick_sqlFaults, hfault]
      rfl
  | none =>
      simp only [sem, Op.exec, World.tick_sqlFaults, hfault] at h ⊢
      cases stmt with
      | createOtaVersion new =>
          simp only [Sql.exec, World.tick_tables] at h ⊢
          split at h
          · simp_all
          · cases h
      | _ => cases h

end Steps

end RmqttThings.Ota
