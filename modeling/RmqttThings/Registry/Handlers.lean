import RmqttThings.Access.Passwords
import RmqttThings.Effects.Pool
import RmqttThings.Relational.UniqueTable
import RmqttThings.Text

namespace RmqttThings.Registry

open Access (AuthConfig AuthPayload Decision parseAuth passesCheck toSign)
open Api (ApiError)
open Commands (validateIdentifier)
open Effects Relational

inductive ProductStatus where
  | online
  | offline
  deriving DecidableEq

-- A row of `product`, without its instants.
structure Product where
  id : Nat
  name : String
  modelNo : String
  description : Option String
  status : ProductStatus
  autoProvisioning : Bool
  deriving DecidableEq

inductive RegistrationSource where
  | auto
  | manual
  deriving DecidableEq

-- A row of `devices`, without its instants.
structure Device where
  id : Nat
  productId : String
  deviceId : String
  registrationSource : RegistrationSource
  deriving DecidableEq

def Device.key (device : Device) : String × String := (device.productId, device.deviceId)

structure CreateProductRequest where
  name : String
  modelNo : String
  description : Option String

structure UpdateProductRequest where
  name : String
  description : String
  autoProvisioning : Bool

def maxProductNameLength : Nat := 128

-- Of the name without the spaces around it; it is stored with them. Irreducible, as the
-- elaborator would get lost in the bytes of a name that it does not know.
@[irreducible] def validateName (name : String) : Except ApiError Unit :=
  if (trim name).isEmpty then .error (.badRequest "name must not be empty")
  else if (trim name).utf8ByteSize > maxProductNameLength then
    .error (.badRequest ("name must not exceed " ++ toString maxProductNameLength ++ " characters"))
  else .ok ()

def validateCreateProductRequest (req : CreateProductRequest) : Except ApiError Unit := do
  validateName req.name
  validateIdentifier req.modelNo "model_no"

def validateUpdateProductRequest (req : UpdateProductRequest) : Except ApiError Unit :=
  validateName req.name

def pgUniqueViolation : String := "23505"

inductive DbError where
  -- An error that the database reports, with its code.
  | database (code : Option String)
  | other
  deriving DecidableEq

structure Tables where
  products : UniqueTable Product.id Product.modelNo
  devices : UniqueTable Device.id Device.key

inductive Statement where
  | createProduct (req : CreateProductRequest)
  | getProduct (id : Int)
  | updateProduct (id : Int) (req : UpdateProductRequest)
  | admissionCheck (productId deviceId : String)
  | upsert (productId deviceId : String) (source : RegistrationSource)

namespace Statement

abbrev Result : Statement → Type
  | createProduct _ => Product
  | getProduct _ => Option Product
  | updateProduct _ _ => Option Product
  | admissionCheck _ _ => Bool × Option Bool
  | upsert _ _ _ => Unit

-- The texts that are bound. A text of PostgreSQL holds no NUL.
def texts : Statement → List String
  | createProduct req => [req.name, req.modelNo] ++ req.description.toList
  | getProduct _ => []
  | updateProduct _ req => [req.name, req.description]
  | admissionCheck productId deviceId => [productId, deviceId]
  | upsert productId deviceId _ => [productId, deviceId]

def storable (statement : Statement) : Bool :=
  statement.texts.all fun text => text.toList.all (· ≠ Char.ofNat 0)

end Statement

-- `id SERIAL` and `id BIGSERIAL`.
def maxSerial : Nat := 2 ^ 31 - 1

def maxBigSerial : Nat := 2 ^ 63 - 1

def insertError : InsertError → DbError
  | .duplicate => .database (some pgUniqueViolation)
  | .exhausted => .database (some "2200H")

namespace ProductRepo

-- The columns that the statement does not name have their defaults.
def newProduct (req : CreateProductRequest) (id : Nat) : Product :=
  ⟨id, req.name, req.modelNo, req.description, .online, false⟩

def createProduct (tables : Tables) (req : CreateProductRequest) :
    Except DbError Product × Tables :=
  let (result, products) := tables.products.insert maxSerial (newProduct req) fun _ => rfl
  (result.mapError insertError, { tables with products })

def getProduct (tables : Tables) (id : Int) : Option Product := tables.products.findId id

def changedProduct (req : UpdateProductRequest) (product : Product) : Product :=
  { product with name := req.name, description := some req.description, autoProvisioning :=
    req.autoProvisioning }

def updateProduct (tables : Tables) (id : Int) (req : UpdateProductRequest) :
    Option Product × Tables :=
  let (row, products) := tables.products.update id (changedProduct req) (fun _ => rfl) fun _ => rfl
  (row, { tables with products })

end ProductRepo

namespace DeviceRepo

-- Whether the device is there, and the setting of the product when there is one.
def admissionCheck (tables : Tables) (productId deviceId : String) : Bool × Option Bool :=
  ((tables.devices.findKey (productId, deviceId)).isSome,
    (tables.products.findKey productId).map Product.autoProvisioning)

def newDevice (productId deviceId : String) (source : RegistrationSource) (id : Nat) : Device :=
  ⟨id, productId, deviceId, source⟩

-- `ON CONFLICT (product_id, device_id) DO NOTHING`.
def upsert (tables : Tables) (productId deviceId : String) (source : RegistrationSource) :
    Except DbError Unit × Tables :=
  let (result, devices) :=
    tables.devices.insert maxBigSerial (newDevice productId deviceId source) fun _ => rfl
  (match result with
    | .ok _ => .ok ()
    | .error .duplicate => .ok ()
    | .error .exhausted => .error (insertError .exhausted), { tables with devices })

end DeviceRepo

def exec (tables : Tables) : (statement : Statement) → Except DbError statement.Result × Tables
  | .createProduct req => ProductRepo.createProduct tables req
  | .getProduct id => (.ok (ProductRepo.getProduct tables id), tables)
  | .updateProduct id req =>
      (.ok (ProductRepo.updateProduct tables id req).1, (ProductRepo.updateProduct tables id req).2)
  | .admissionCheck productId deviceId =>
      (.ok (DeviceRepo.admissionCheck tables productId deviceId), tables)
  | .upsert productId deviceId source => DeviceRepo.upsert tables productId deviceId source

-- A statement that fails on the way. Its answer may be what is lost, and not its effect.
structure Fault where
  error : DbError
  applied : Bool
  ne_unique : error ≠ .database (some pgUniqueViolation)

inductive Op where
  -- `OffsetDateTime::now_utc().unix_timestamp()`
  | now
  | sql (statement : Statement)

abbrev Op.Ans : Op → Type
  | .now => Int
  | .sql statement => Except DbError statement.Result

-- The clock and the faults are those of the operation that comes next.
structure World where
  tables : Tables
  clock : Nat → Int
  fault : Nat → Option Fault
  performed : Nat

def runStatement (w : World) (statement : Statement) : Except DbError statement.Result × Tables :=
  if statement.storable then
    match w.fault w.performed with
    | none => exec w.tables statement
    | some fault =>
        (.error fault.error, if fault.applied then (exec w.tables statement).2 else w.tables)
  else (.error (.database (some "22021")), w.tables)

def sem : (op : Op) → World → op.Ans × World
  | .now, w => (w.clock w.performed, { w with performed := w.performed + 1 })
  | .sql statement, w =>
      ((runStatement w statement).1,
        { w with tables := (runStatement w statement).2, performed := w.performed + 1 })

abbrev Code := Prog Op.Ans

def query (statement : Statement) : Code (Except DbError statement.Result) :=
  Prog.perform (Op.sql statement)

def databaseFailed : ApiError := .internal "Database operation failed"

section Handlers

def createProduct (req : CreateProductRequest) : Code (Except ApiError Product) :=
  match validateCreateProductRequest req with
  | .error e => return .error e
  | .ok _ => do
      match ← query (.createProduct req) with
      | .ok product => return .ok product
      | .error e =>
          if e = .database (some pgUniqueViolation) then return .error (.conflict "产品型号编号已存在")
          else return .error databaseFailed

-- What `get_product` and `update_product` answer.
def productFound : Except DbError (Option Product) → Except ApiError Product
  | .ok (some product) => .ok product
  | .ok none => .error (.notFound "Product not found")
  | .error _ => .error databaseFailed

def updateProduct (id : Int) (req : UpdateProductRequest) : Code (Except ApiError Product) :=
  match validateUpdateProductRequest req with
  | .error e => return .error e
  | .ok _ => return productFound (← query (.updateProduct id req))

def getProduct (id : Int) : Code (Except ApiError Product) :=
  return productFound (← query (.getProduct id))

def checkDeviceAdmission (productId deviceId : String) : Code Decision := do
  match ← query (.admissionCheck productId deviceId) with
  | .error _ => return .deny
  | .ok (true, _) => return .allow
  | .ok (false, some true) =>
      match ← query (.upsert productId deviceId .auto) with
      | .error _ => return .deny
      | .ok _ => return .allow
  | .ok (false, some false) => return .deny
  | .ok (false, none) => return .deny

variable (hmacSha1 : String → String → String) (config : AuthConfig)

def auth (payload : AuthPayload) : Code Decision :=
  match parseAuth payload with
  | none => return .deny
  | some password => do
      let now ← Prog.perform Op.now
      if ¬passesCheck .release config now password then return .deny
      else if hmacSha1 config.suffix (toSign config payload.clientId password) ≠
        password.hash then return .deny
      else
        match payload.username with
        | none => return .deny
        | some productId => checkDeviceAdmission productId payload.clientId

inductive Request where
  | createProduct (req : CreateProductRequest)
  | updateProduct (id : Int) (req : UpdateProductRequest)
  | getProduct (id : Int)
  | auth (payload : AuthPayload)

inductive Reply where
  | created (result : Except ApiError Product)
  | product (result : Except ApiError Product)
  | decision (decision : Decision)

def code : Request → Code Reply
  | .createProduct req => return .created (← createProduct req)
  | .updateProduct id req => return .product (← updateProduct id req)
  | .getProduct id => return .product (← getProduct id)
  | .auth payload => return .decision (← auth hmacSha1 config payload)

end Handlers

end RmqttThings.Registry
