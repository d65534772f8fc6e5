import RmqttThings.Access.Isolation
import RmqttThings.Effects.Stages
import RmqttThings.Registry.Protocol

namespace RmqttThings.Registry

open Access (AuthConfig AuthPayload)
open Commands (validateIdentifier)
open Effects Effects.Pool Relational UniqueTable

section Step

variable {tables : Tables}

theorem products_createProduct {req : CreateProductRequest} :
    (ProductRepo.createProduct tables req).2.products =
    (tables.products.insert maxSerial (ProductRepo.newProduct req) fun _ => rfl).2 := rfl

theorem devices_upsert {productId deviceId : String} {source : RegistrationSource} :
    (DeviceRepo.upsert tables productId deviceId source).2.devices =
      (tables.devices.insert maxBigSerial (DeviceRepo.newDevice productId deviceId source) fun _ =>
        rfl).2 := rfl

theorem products_le_exec (statement : Statement) :
    tables.products ≤ (exec tables statement).2.products := by
  cases statement with
  | createProduct req =>
      exact le_insert tables.products maxSerial (ProductRepo.newProduct req) fun _ => rfl
  | updateProduct id req =>
      exact le_update tables.products id (ProductRepo.changedProduct req) (fun _ => rfl) fun _ =>
        rfl
  | getProduct | admissionCheck | upsert => exact le_refl _

theorem devices_le_exec (statement : Statement) :
    tables.devices ≤ (exec tables statement).2.devices := by
  cases statement with
  | upsert productId deviceId source =>
      exact le_insert tables.devices maxBigSerial (DeviceRepo.newDevice productId deviceId source)
        fun _ => rfl
  | createProduct | updateProduct | getProduct | admissionCheck => exact le_refl _

-- Everything that running a statement can do.
theorem runStatement_cases (w : World) (statement : Statement) :
    runStatement w statement = exec w.tables statement ∨
      ∃ e, (runStatement w statement).1 = .error e ∧ e ≠ .database (some pgUniqueViolation) ∧
        ((runStatement w statement).2 = w.tables ∨ (runStatement w statement).2 =
          (exec w.tables statement).2) := by
  unfold runStatement
  by_cases hstorable : statement.storable = true
  · rw [if_pos hstorable]
    cases w.fault w.performed with
    | none => exact .inl rfl
    | some fault =>
        refine .inr ⟨fault.error, rfl, fault.ne_unique, ?_⟩
        by_cases happlied : fault.applied = true
        · exact .inr (if_pos happlied)
        · exact .inl (if_neg happlied)
  · rw [if_neg hstorable]
    exact .inr ⟨_, rfl, by decide, .inl rfl⟩

theorem tables_sem (op : Op) (w : World) : (sem op w).2.tables = w.tables ∨
    ∃ statement, op = .sql statement ∧ (sem op w).2.tables = (exec w.tables statement).2 := by
  cases op with
  | now => exact .inl rfl
  | sql statement =>
      rcases runStatement_cases w statement with hexec | ⟨e, -, -, hsame | hexec⟩
      · exact .inr ⟨statement, rfl, congrArg Prod.snd hexec⟩
      · exact .inl hsame
      · exact .inr ⟨statement, rfl, hexec⟩

-- An answer that is no error is the one of the statement, and it has taken effect.
theorem exec_of_ok {w : World} {statement : Statement} {result : statement.Result}
    (h : (sem (.sql statement) w).1 = .ok result) :
    (exec w.tables statement).1 = .ok result ∧ (sem (.sql statement) w).2.tables =
      (exec w.tables statement).2 := by
  have hanswer : (runStatement w statement).1 = .ok result := h
  rcases runStatement_cases w statement with hexec | ⟨e, herror, -, -⟩
  · exact ⟨hexec ▸ hanswer, congrArg Prod.snd hexec⟩
  · rw [herror] at hanswer
    cases hanswer

-- A unique violation is an answer of the index.
theorem exec_of_unique {w : World} {statement : Statement}
    (h : (sem (.sql statement) w).1 = .error (.database (some pgUniqueViolation))) :
    (exec w.tables statement).1 = .error (.database (some pgUniqueViolation)) := by
  have hanswer : (runStatement w statement).1 = .error (.database (some pgUniqueViolation)) := h
  rcases runStatement_cases w statement with hexec | ⟨e, herror, hne, -⟩
  · exact hexec ▸ hanswer
  · rw [herror, Except.error.injEq] at hanswer
    exact absurd hanswer hne

theorem products_le_sem (op : Op) (w : World) :
    w.tables.products ≤ (sem op w).2.tables.products := by
  rcases tables_sem op w with hsame | ⟨statement, -, hexec⟩
  · rw [hsame]
  · rw [hexec]
    exact products_le_exec statement

theorem devices_le_sem (op : Op) (w : World) : w.tables.devices ≤ (sem op w).2.tables.devices := by
  rcases tables_sem op w with hsame | ⟨statement, -, hexec⟩
  · rw [hsame]
  · rw [hexec]
    exact devices_le_exec statement

end Step

-- The product is in the registry.
def Tables.HasProduct (tables : Tables) (modelNo : String) : Prop :=
  ∃ product ∈ tables.products.rows, product.modelNo = modelNo

-- The device is in the registry.
def Tables.HasDevice (tables : Tables) (productId deviceId : String) : Prop :=
  ∃ device ∈ tables.devices.rows, device.key = (productId, deviceId)

theorem Tables.HasProduct.later {tables later : Tables} {modelNo : String}
    (h : tables.HasProduct modelNo)
    (hle : tables.products ≤ later.products) : later.HasProduct modelNo := by
  obtain ⟨product, hmem, hkey⟩ := h
  obtain ⟨now, hnow, -, hsame⟩ := hle.kept product hmem
  exact ⟨now, hnow, hsame.trans hkey⟩

theorem Tables.HasDevice.later {tables later : Tables} {productId deviceId : String}
    (h : tables.HasDevice productId deviceId) (hle : tables.devices ≤ later.devices) :
    later.HasDevice productId deviceId := by
  obtain ⟨device, hmem, hkey⟩ := h
  obtain ⟨now, hnow, -, hsame⟩ := hle.kept device hmem
  exact ⟨now, hnow, hsame.trans hkey⟩

-- What every row has passed before it was written, and that no device is without its product.
structure Sound (tables : Tables) : Prop where
  names : ∀ product ∈ tables.products.rows, validateName product.name = .ok ()
  modelNos : ∀ product ∈ tables.products.rows, validateIdentifier product.modelNo "model_no" =
    .ok ()
  products : ∀ device ∈ tables.devices.rows, tables.HasProduct device.productId
  deviceIds : ∀ device ∈ tables.devices.rows, device.deviceId.utf8ByteSize ≤ 64

theorem validateCreateProductRequest_ok {req : CreateProductRequest}
    (h : validateCreateProductRequest req = .ok ()) :
    validateName req.name = .ok () ∧ validateIdentifier req.modelNo "model_no" = .ok () := by
  unfold validateCreateProductRequest at h
  cases hname : validateName req.name with
  | error e =>
      rw [hname] at h
      cases h
  | ok checked =>
      rw [hname] at h
      exact ⟨rfl, h⟩

section Sound

variable {tables : Tables}

theorem Sound.createProduct (h : Sound tables) {req : CreateProductRequest}
    (hvalid : validateCreateProductRequest req = .ok ()) :
    Sound (ProductRepo.createProduct tables req).2 := by
  have hle := @products_le_exec tables (.createProduct req)
  obtain ⟨hname, hmodelNo⟩ := validateCreateProductRequest_ok hvalid
  have hrows : ∀ product ∈ (ProductRepo.createProduct tables req).2.products.rows,
      product ∈ tables.products.rows ∨ ∃ id, product = ProductRepo.newProduct req id := by
    intro product hmem
    rw [products_createProduct] at hmem
    rcases insert_cases tables.products maxSerial (ProductRepo.newProduct req) fun _ => rfl with
      ⟨row, rfl, -, -, hrows, -⟩ | ⟨e, -, hrows, -, -⟩
    · rw [hrows, List.mem_append, List.mem_singleton] at hmem
      rcases hmem with hold | hnew
      · exact .inl hold
      · exact .inr ⟨_, hnew⟩
    · exact .inl (hrows ▸ hmem)
  constructor
  · intro product hmem
    rcases hrows product hmem with hold | ⟨id, rfl⟩
    · exact h.names product hold
    · exact hname
  · intro product hmem
    rcases hrows product hmem with hold | ⟨id, rfl⟩
    · exact h.modelNos product hold
    · exact hmodelNo
  · exact fun device hmem => (h.products device hmem).later hle
  · exact h.deviceIds

theorem mem_updateProduct {id : Int} {req : UpdateProductRequest} {product : Product} :
    product ∈ (ProductRepo.updateProduct tables id req).2.products.rows ↔
      (product ∈ tables.products.rows ∧ (product.id : Int) ≠ id) ∨
        ∃ old ∈ tables.products.rows, (old.id : Int) = id ∧
          product = ProductRepo.changedProduct req old :=
  @mem_update _ _ _ _ tables.products id (ProductRepo.changedProduct req) (fun _ => rfl)
    (fun _ => rfl) product

theorem Sound.updateProduct (h : Sound tables) {id : Int} {req : UpdateProductRequest}
    (hvalid : validateUpdateProductRequest req = .ok ()) :
    Sound (ProductRepo.updateProduct tables id req).2 := by
  have hle := @products_le_exec tables (.updateProduct id req)
  constructor
  · intro product hmem
    rcases mem_updateProduct.mp hmem with ⟨hold, -⟩ | ⟨old, -, -, rfl⟩
    · exact h.names product hold
    · exact hvalid
  · intro product hmem
    rcases mem_updateProduct.mp hmem with ⟨hold, -⟩ | ⟨old, hold, -, rfl⟩
    · exact h.modelNos product hold
    · exact h.modelNos old hold
  · exact fun device hmem => (h.products device hmem).later hle
  · exact h.deviceIds

theorem mem_upsert {productId deviceId : String} {source : RegistrationSource} {device : Device}
    (hmem : device ∈ (DeviceRepo.upsert tables productId deviceId source).2.devices.rows) :
    device ∈ tables.devices.rows ∨ ∃ id, device = DeviceRepo.newDevice productId deviceId
      source id := by
  rw [devices_upsert] at hmem
  rcases insert_cases tables.devices maxBigSerial (DeviceRepo.newDevice productId deviceId source)
    fun _ => rfl with
    ⟨row, rfl, -, -, hrows, -⟩ | ⟨e, -, hrows, -, -⟩
  · rw [hrows, List.mem_append, List.mem_singleton] at hmem
    rcases hmem with hold | hnew
    · exact .inl hold
    · exact .inr ⟨_, hnew⟩
  · exact .inl (hrows ▸ hmem)

theorem Sound.upsert (h : Sound tables) {productId deviceId : String} {source : RegistrationSource}
    (hproduct : tables.HasProduct productId) (hlength : deviceId.utf8ByteSize ≤ 64) :
    Sound (DeviceRepo.upsert tables productId deviceId source).2 := by
  refine ⟨h.names, h.modelNos, fun device hmem => ?_, fun device hmem => ?_⟩
  · rcases mem_upsert hmem with hold | ⟨id, rfl⟩
    · exact h.products device hold
    · exact hproduct
  · rcases mem_upsert hmem with hold | ⟨id, rfl⟩
    · exact h.deviceIds device hold
    · exact hlength

-- The insertion has put the device there, or it was there.
theorem hasDevice_upsert {productId deviceId : String} {source : RegistrationSource}
    (h : (DeviceRepo.upsert tables productId deviceId source).1 = .ok ()) :
    (DeviceRepo.upsert tables productId deviceId source).2.HasDevice productId deviceId := by
  rcases insert_cases tables.devices maxBigSerial (DeviceRepo.newDevice productId deviceId source)
    fun _ => rfl with
    ⟨row, rfl, -, -, hrows, -⟩ | ⟨e, herror, hrows, -, hduplicate⟩
  · refine ⟨DeviceRepo.newDevice productId deviceId source tables.devices.nextId, ?_, rfl⟩
    rw [devices_upsert, hrows]
    exact List.mem_append_right _ List.mem_cons_self
  · cases e with
    | exhausted =>
        simp only [DeviceRepo.upsert, herror] at h
        cases h
    | duplicate =>
        obtain ⟨other, hmem, hkey⟩ := hduplicate rfl
        exact ⟨other, by rw [devices_upsert, hrows]; exact hmem, hkey⟩

end Sound

end RmqttThings.Registry
