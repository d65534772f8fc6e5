import RmqttThings.Registry.Admission

namespace RmqttThings.Registry

open Access (AuthConfig AuthPayload AuthEnv AccessTables Decision)
open Effects Effects.Prog Effects.Pool Relational UniqueTable

-- Whether the devices of a product are registered as they come, when there is such a product.
def Tables.settingOf (tables : Tables) (modelNo : String) : Option Bool :=
  (tables.products.findKey modelNo).map Product.autoProvisioning

section Off

variable (hmacSha1 : String → String → String) (config : AuthConfig) (start : World)

-- The check of a request has been answered that the device may be registered.
def Provisions (log : List (Nat × Event Op.Ans)) (thread : Nat) (productId deviceId : String) :
    Prop :=
  (thread, ⟨.sql (.admissionCheck productId deviceId), .ok (false, some true)⟩) ∈ log

variable {hmacSha1 config} in
theorem provisions_of_upsert {request : Request} {log : List (Nat × Event Op.Ans)} {thread : Nat}
    {productId deviceId : String} {source : RegistrationSource}
    (h : Allowed hmacSha1 config request (history thread log)
      (.sql (.upsert productId deviceId source))) :
    Provisions log thread productId deviceId := by
  obtain ⟨-, payload, now, password, -, -, -, rfl, hpast⟩ := h
  exact mem_history.mp (by simp [hpast])

-- While a product does not provision, no check lets a device of it be registered, and a device
-- that comes in was let in before.
theorem quiet_run (before after : List (Move Request)) (modelNo : String)
    (hoff : ∀ stage, stage <+: after →
      (tablesAfter hmacSha1 config start (before ++ stage)).settingOf modelNo ≠ some true) :
    (∀ thread deviceId, Provisions (playFrom hmacSha1 config start (before ++ after)).log thread
      modelNo deviceId →
      Provisions (playFrom hmacSha1 config start before).log thread modelNo deviceId) ∧
    ∀ device ∈ (tablesAfter hmacSha1 config start (before ++ after)).devices.rows,
      device.productId = modelNo →
      device ∈ (tablesAfter hmacSha1 config start before).devices.rows ∨
        ∃ thread, Provisions (playFrom hmacSha1 config start before).log thread modelNo
          device.deviceId := by
  apply stage_invariant sem (code hmacSha1 config) (code_spec hmacSha1 config) fun pool =>
    (∀ thread deviceId, Provisions pool.log thread modelNo deviceId →
      Provisions (playFrom hmacSha1 config start before).log thread modelNo deviceId) ∧
    ∀ device ∈ pool.state.tables.devices.rows, device.productId = modelNo →
      device ∈ (tablesAfter hmacSha1 config start before).devices.rows ∨
        ∃ thread, Provisions (playFrom hmacSha1 config start before).log thread modelNo
          device.deviceId
  · exact ⟨fun _ _ h => h, fun _ hmem _ => .inl hmem⟩
  · exact fun _ _ h => h
  · rintro stage hstage thread request op next - hallowed ⟨hchecks, hdevices⟩
    have hsetting := hoff stage hstage
    constructor
    · intro other deviceId hmem
      rcases List.mem_cons.mp hmem with hnew | hold
      · exact absurd (congrArg Prod.snd (admissionCheck_of_event (Prod.mk.inj hnew).2)) hsetting
      · exact hchecks other deviceId hold
    · intro device hmem hproduct
      rcases tables_sem op (playFrom hmacSha1 config start (before ++ stage)).state with
        hsame | ⟨statement, rfl, hexec⟩
      · simp only [performed, hsame] at hmem
        exact hdevices device hmem hproduct
      · simp only [performed, hexec] at hmem
        cases statement with
        | createProduct | getProduct | updateProduct | admissionCheck =>
            exact hdevices device hmem hproduct
        | upsert productId deviceId source =>
            rcases mem_upsert hmem with hold | ⟨id, rfl⟩
            · exact hdevices device hold hproduct
            · have hprovisions := provisions_of_upsert hallowed
              obtain rfl : productId = modelNo := hproduct
              exact .inr ⟨thread, hchecks thread deviceId hprovisions⟩

-- Automatic registration that is switched off stays off: from then on an authentication
-- registers a device only if it had been told before that it may.
theorem no_registration_when_off (before after : List (Move Request)) (modelNo : String)
    (device : Device) (hoff : ∀ stage, stage <+: after →
      (tablesAfter hmacSha1 config start (before ++ stage)).settingOf modelNo ≠ some true)
    (hmem : device ∈ (tablesAfter hmacSha1 config start (before ++ after)).devices.rows)
    (hproduct : device.productId = modelNo) :
    device ∈ (tablesAfter hmacSha1 config start before).devices.rows ∨
      ∃ thread payload program, (playFrom hmacSha1 config start before).threads[thread]? =
          some ⟨.auth payload, program⟩ ∧ payload.username = some modelNo ∧
            payload.clientId = device.deviceId ∧
        Provisions (playFrom hmacSha1 config start before).log thread modelNo device.deviceId := by
  rcases (quiet_run hmacSha1 config start before after modelNo hoff).2 device hmem hproduct with
    hold | ⟨thread, hlog⟩
  · exact .inl hold
  · right
    obtain ⟨later, earlier, hsplit⟩ := List.append_of_mem hlog
    obtain ⟨served, hserved, hallowed⟩ :=
      allowed_of_log sem (code hmacSha1 config) (code_spec hmacSha1 config) before
      start later earlier thread _ hsplit
    obtain ⟨payload, now, password, hrequest, -, husername, hclient, -⟩ := hallowed
    obtain ⟨request, program⟩ := served
    obtain rfl : request = .auth payload := hrequest
    exact ⟨thread, payload, program, hserved, husername, hclient, hlog⟩

-- A device is told that it may register, the setting is switched off, and the device comes in.
def switchOff : UpdateProductRequest := ⟨"Sensor", "", false⟩

def toldMoves : List (Move Request) :=
  [.spawn (.auth Access.sensor), .step 0, .step 0, .spawn (.updateProduct 1 switchOff), .step 1]

def sensorDevice : Device := ⟨1, "product-a", "sensor-001", .auto⟩

theorem demo_no_registration_when_off :
    ∃ thread payload program,
      (playFrom Access.demoHmac Access.demoConfig demoWorld toldMoves).threads[thread]? =
        some ⟨.auth payload, program⟩ ∧ payload.username = some "product-a" ∧
          payload.clientId = "sensor-001" ∧
      Provisions (playFrom Access.demoHmac Access.demoConfig demoWorld toldMoves).log thread
        "product-a" "sensor-001" := by
  have hoff : ∀ stage, stage <+: [.step 0] →
      (tablesAfter Access.demoHmac Access.demoConfig demoWorld
      (toldMoves ++ stage)).settingOf "product-a" ≠ some true := by
    intro stage hstage
    simp only [List.prefix_cons_iff, List.prefix_nil] at hstage
    rcases hstage with rfl | ⟨_, rfl, rfl⟩
    · decide +kernel
    · decide +kernel
  have hin : sensorDevice ∈ (tablesAfter Access.demoHmac Access.demoConfig demoWorld
      (toldMoves ++ [.step 0])).devices.rows := by decide +kernel
  have hnew : sensorDevice ∉ (tablesAfter Access.demoHmac Access.demoConfig demoWorld
      toldMoves).devices.rows := by
    decide +kernel
  exact (no_registration_when_off Access.demoHmac Access.demoConfig demoWorld toldMoves [.step 0]
    "product-a" sensorDevice hoff hin rfl).resolve_left hnew

end Off

end RmqttThings.Registry
