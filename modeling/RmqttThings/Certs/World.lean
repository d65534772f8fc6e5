import RmqttThings.Api.AlarmHandlers
import RmqttThings.Commands.Topics

namespace RmqttThings.Certs

open Effects
open Api (ApiError databaseError)
open Commands (validateIdentifier)

inductive CertStatus where
  | normal
  | inValid
  | revoked
  deriving DecidableEq

-- `CertStatus::try_from` of the number in a request.
def CertStatus.tryFrom : Int → Option CertStatus
  | 0 => some .normal
  | 1 => some .inValid
  | 2 => some .revoked
  | _ => none

-- What `create` binds; the new row is `Normal`.
structure NewCert where
  productId : String
  deviceId : String
  pubCert : String
  startAt : OffsetDateTime
  endAt : OffsetDateTime
  deriving DecidableEq

-- A row of `cert_issue`.
structure CertIssue extends NewCert where
  id : Int
  status : CertStatus
  createdAt : OffsetDateTime
  deriving DecidableEq

-- Ids come from a sequence that is ahead of every row, so the rows stand in the order of their ids.
structure CertTable where
  rows : List CertIssue
  nextId : Int
  sorted : rows.Pairwise fun row next => row.id < next.id
  ahead : ∀ row ∈ rows, row.id < nextId

namespace CertTable

def empty : CertTable where
  rows := []
  nextId := 1
  sorted := .nil
  ahead := by simp

def ofDevice (productId deviceId : String) (row : CertIssue) : Bool :=
  row.productId == productId && row.deviceId == deviceId

def newRow (table : CertTable) (new : NewCert) (now : OffsetDateTime) : CertIssue where
  toNewCert := new
  id := table.nextId
  status := .normal
  createdAt := now

def create (table : CertTable) (new : NewCert) (now : OffsetDateTime) : CertTable where
  rows := table.rows ++ [table.newRow new now]
  nextId := table.nextId + 1
  sorted := by
    rw [List.pairwise_append]
    refine ⟨table.sorted, List.pairwise_singleton _ _, ?_⟩
    intro row hrow next hnext
    rw [List.mem_singleton.mp hnext]
    exact table.ahead row hrow
  ahead := by
    intro row hrow
    rcases List.mem_append.mp hrow with hold | hnew
    · have hlt := table.ahead row hold
      omega
    · rw [List.mem_singleton.mp hnew]
      exact Int.lt_succ table.nextId

-- `ORDER BY id DESC`, of which the first row is taken.
def findByDeviceId (table : CertTable) (productId deviceId : String) : Option CertIssue :=
  (table.rows.filter (ofDevice productId deviceId)).getLast?

def findById (table : CertTable) (id : Int) : Option CertIssue := table.rows.find? (·.id == id)

-- A row under `SET status = $status WHERE <cond> AND status = 0`.
def retire (cond : CertIssue → Bool) (status : CertStatus) (row : CertIssue) : CertIssue :=
  if cond row && row.status == .normal then { row with status := status } else row

@[simp] theorem retire_id (cond : CertIssue → Bool) (status : CertStatus) (row : CertIssue) :
    (retire cond status row).id = row.id := by
  unfold retire
  split_ifs <;> rfl

@[simp] theorem retire_toNewCert (cond : CertIssue → Bool) (status : CertStatus) (row : CertIssue) :
    (retire cond status row).toNewCert = row.toNewCert := by
  unfold retire
  split_ifs <;> rfl

def updateWhere (table : CertTable) (cond : CertIssue → Bool) (status : CertStatus) :
    CertTable where
  rows := table.rows.map (retire cond status)
  nextId := table.nextId
  sorted := by
    rw [List.pairwise_map]
    exact table.sorted.imp fun hlt => by simpa using hlt
  ahead := by
    intro row hrow
    obtain ⟨old, hold, rfl⟩ := List.mem_map.mp hrow
    rw [retire_id]
    exact table.ahead old hold

def updateStatus (table : CertTable) (productId deviceId : String) (status : CertStatus) :
    CertTable :=
  table.updateWhere (ofDevice productId deviceId) status

def updateStatusById (table : CertTable) (id : Int) (status : CertStatus) : CertTable :=
  table.updateWhere (·.id == id) status

end CertTable

inductive RegistrationSource where
  | auto
  | manual
  deriving DecidableEq

-- The statements of `CertIssueRepo` behind the two handlers, and the upsert of the device.
inductive Sql where
  | create (cert : NewCert)
  | findByDeviceId (productId deviceId : String)
  | updateStatus (productId deviceId : String) (status : CertStatus)
  | updateStatusById (id : Int) (status : CertStatus)
  | findById (id : Int)
  | upsertDevice (productId deviceId : String) (source : RegistrationSource)

@[reducible] def Sql.Ans : Sql → Type
  | .create _ => Unit
  | .findByDeviceId _ _ => Option CertIssue
  | .updateStatus _ _ _ => Unit
  | .updateStatusById _ _ => Unit
  | .findById _ => Option CertIssue
  | .upsertDevice _ _ _ => Unit

-- Each statement is atomic; `now` is the default of `created_at`.
def Sql.exec (now : OffsetDateTime) : (stmt : Sql) → CertTable → stmt.Ans × CertTable
  | .create cert, table => ((), table.create cert now)
  | .findByDeviceId productId deviceId, table => (table.findByDeviceId productId deviceId, table)
  | .updateStatus productId deviceId status, table =>
      ((), table.updateStatus productId deviceId status)
  | .updateStatusById id status, table => ((), table.updateStatusById id status)
  | .findById id, table => (table.findById id, table)
  | .upsertDevice _ _ _, table => ((), table)

structure IssueCertResponse where
  certPem : String
  keyPem : String

-- The certificate table and the clock. The streams are the environment's choices: how long
-- each operation takes, which statements fail, what the files of the CA hold, and what the
-- generator makes of a request.
structure World where
  clock : OffsetDateTime
  delays : Nat → Nat
  sqlFaults : Nat → Option String
  caFiles : Nat → Except String String
  generated : Nat → Except String IssueCertResponse
  certs : CertTable

inductive Op where
  | nowUtc
  | sql (stmt : Sql)
  | readToString (fileName : String)
  | issueCert (caCertPem caKeyPem productId deviceId : String) (startAt endAt : OffsetDateTime)

@[reducible] def Op.Ans : Op → Type
  | .nowUtc => OffsetDateTime
  | .sql stmt => Except String stmt.Ans
  | .readToString _ => Except String String
  | .issueCert _ _ _ _ _ _ => Except String IssueCertResponse

abbrev M := Prog Op.Ans

abbrev Past := List (Event Op.Ans)

namespace World

-- Nothing fails and no time passes.
def started (certs : CertTable) : World where
  clock := 0
  delays := fun _ => 0
  sqlFaults := fun _ => none
  caFiles := fun _ => .ok "pem"
  generated := fun _ => .ok ⟨"cert", "key"⟩
  certs := certs

@[simps -fullyApplied] def withCerts (w : World) (certs : CertTable) : World :=
  { w with certs := certs }

@[simps -fullyApplied] def popSql (w : World) : World :=
  { w with sqlFaults := fun n => w.sqlFaults (n + 1) }

@[simps -fullyApplied] def popFile (w : World) : World :=
  { w with caFiles := fun n => w.caFiles (n + 1) }

@[simps -fullyApplied] def popGenerated (w : World) : World :=
  { w with generated := fun n => w.generated (n + 1) }

-- Any time may pass before an operation takes effect.
@[simps -fullyApplied] def tick (w : World) : World :=
  { w with clock := w.clock + w.delays 0, delays := fun n => w.delays (n + 1) }

end World

-- A statement that fails has no effect.
def Op.exec : (op : Op) → World → op.Ans × World
  | .nowUtc, w => (w.clock, w)
  | .sql stmt, w =>
      match w.sqlFaults 0 with
      | some error => (.error error, w.popSql)
      | none =>
          (.ok (stmt.exec w.clock w.certs).1, w.popSql.withCerts (stmt.exec w.clock w.certs).2)
  | .readToString _, w => (w.caFiles 0, w.popFile)
  | .issueCert _ _ _ _ _ _, w => (w.generated 0, w.popGenerated)

def sem (op : Op) (w : World) : op.Ans × World := op.exec w.tick

def query (stmt : Sql) : M (Except String stmt.Ans) := Prog.perform (Op.sql stmt)

section Steps

variable (op : Op) (w : World)

@[simp] theorem sem_clock : (sem op w).2.clock = w.clock + w.delays 0 := by
  cases op with
  | sql stmt =>
      simp only [sem, Op.exec]
      split <;> rfl
  | _ => rfl

theorem le_sem_clock : w.clock ≤ (sem op w).2.clock := by
  rw [sem_clock]
  exact Int.le_add_of_nonneg_right (Int.natCast_nonneg _)

theorem sem_nowUtc : (sem .nowUtc w).1 = (sem .nowUtc w).2.clock := rfl

@[simp] theorem sem_nowUtc_certs : (sem .nowUtc w).2.certs = w.certs := rfl

@[simp] theorem sem_readToString_certs (fileName : String) :
    (sem (.readToString fileName) w).2.certs = w.certs := rfl

@[simp] theorem sem_issueCert_certs (caCertPem caKeyPem productId deviceId : String)
    (startAt endAt : OffsetDateTime) :
    (sem (.issueCert caCertPem caKeyPem productId deviceId startAt endAt) w).2.certs = w.certs :=
      rfl

-- A statement fails without an effect, or it is executed on the table of that moment.
theorem sem_sql_cases (stmt : Sql) :
    (∃ error, (sem (.sql stmt) w).1 = .error error ∧ (sem (.sql stmt) w).2.certs = w.certs) ∨
      ((sem (.sql stmt) w).1 = .ok (stmt.exec (sem (.sql stmt) w).2.clock w.certs).1 ∧
        (sem (.sql stmt) w).2.certs = (stmt.exec (sem (.sql stmt) w).2.clock w.certs).2) := by
  cases hfault : w.sqlFaults 0 with
  | some error => exact .inl ⟨error, by simp [sem, Op.exec, hfault]⟩
  | none => exact .inr (by simp [sem, Op.exec, hfault])

end Steps

end RmqttThings.Certs
