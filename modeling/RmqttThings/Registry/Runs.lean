import RmqttThings.Registry.Soundness

namespace RmqttThings.Registry

open Access (AuthConfig AuthPayload Decision Isolated)
open Api (ApiError)
open Commands (validateIdentifier)
open Effects Effects.Prog Effects.Pool Relational UniqueTable

section Runs

variable (hmacSha1 : String → String → String) (config : AuthConfig) (start : World)

abbrev playFrom (moves : List (Move Request)) : Pool World Request Op.Ans Reply :=
  play sem (code hmacSha1 config) moves start

abbrev tablesAfter (moves : List (Move Request)) : Tables :=
  (playFrom hmacSha1 config start moves).state.tables

theorem products_le_run (before after : List (Move Request)) :
    (tablesAfter hmacSha1 config start before).products ≤
      (tablesAfter hmacSha1 config start (before ++ after)).products := by
  apply stage_invariant sem (code hmacSha1 config) (code_spec hmacSha1 config)
    fun pool => (tablesAfter hmacSha1 config start before).products ≤ pool.state.tables.products
  · exact le_refl _
  · exact fun _ _ h => h
  · exact fun _ _ _ _ op _ _ _ h => le_trans h (products_le_sem op _)

-- A row of `devices` never changes.
theorem devices_prefix_exec (tables : Tables) (statement : Statement) :
    tables.devices.rows <+: (exec tables statement).2.devices.rows := by
  cases statement with
  | upsert productId deviceId source =>
      show tables.devices.rows <+:
        (DeviceRepo.upsert tables productId deviceId source).2.devices.rows
      rw [devices_upsert]
      rcases insert_cases tables.devices maxBigSerial
        (DeviceRepo.newDevice productId deviceId source) fun _ => rfl with
        ⟨row, -, -, -, hrows, -⟩ | ⟨e, -, hrows, -, -⟩
      · rw [hrows]
        exact List.prefix_append _ _
      · rw [hrows]
  | createProduct | updateProduct | getProduct | admissionCheck => exact List.prefix_rfl

theorem devices_prefix_run (before after : List (Move Request)) :
    (tablesAfter hmacSha1 config start before).devices.rows <+:
      (tablesAfter hmacSha1 config start (before ++ after)).devices.rows := by
  apply stage_invariant sem (code hmacSha1 config) (code_spec hmacSha1 config)
    fun pool => (tablesAfter hmacSha1 config start before).devices.rows <+:
      pool.state.tables.devices.rows
  · exact List.prefix_rfl
  · exact fun _ _ h => h
  · intro stage _ thread request op next _ _ h
    refine h.trans ?_
    rcases tables_sem op (playFrom hmacSha1 config start (before ++ stage)).state with
      hsame | ⟨statement, -, hexec⟩
    · simp only [performed, hsame]
      exact List.prefix_rfl
    · simp only [performed, hexec]
      exact devices_prefix_exec _ statement

-- The check that has found a setting has found it in the row of the product.
def Checked (pool : Pool World Request Op.Ans Reply) : Prop :=
  ∀ thread productId deviceId found setting,
    (thread, ⟨.sql (.admissionCheck productId deviceId), .ok (found, some setting)⟩) ∈ pool.log →
    pool.state.tables.HasProduct productId

theorem admissionCheck_some {tables : Tables} {productId deviceId : String} {found setting : Bool}
    (h : DeviceRepo.admissionCheck tables productId deviceId = (found, some setting)) :
    ∃ product ∈ tables.products.rows, product.modelNo = productId ∧ product.autoProvisioning =
      setting := by
  have hsetting : (tables.products.findKey productId).map Product.autoProvisioning = some setting :=
    congrArg Prod.snd h
  obtain ⟨product, hfind, hauto⟩ := Option.map_eq_some_iff.mp hsetting
  obtain ⟨hmem, hkey⟩ := findKey_eq_some_iff.mp hfind
  exact ⟨product, hmem, hkey, hauto⟩

theorem admissionCheck_of_answer {w : World} {productId deviceId : String}
    {result : Bool × Option Bool}
    (h : (sem (.sql (.admissionCheck productId deviceId)) w).1 = .ok result) :
    DeviceRepo.admissionCheck w.tables productId deviceId = result := by
  have hexec := (exec_of_ok h).1
  simpa only [exec, Except.ok.injEq] using hexec

theorem admissionCheck_of_event {w : World} {op : Op} {productId deviceId : String}
    {result : Bool × Option Bool}
    (h : (⟨.sql (.admissionCheck productId deviceId), .ok result⟩ : Event Op.Ans) =
      ⟨op, (sem op w).1⟩) :
    DeviceRepo.admissionCheck w.tables productId deviceId = result := by
  obtain ⟨hop, hanswer⟩ := Sigma.mk.inj h
  subst hop
  exact admissionCheck_of_answer (eq_of_heq hanswer).symm

theorem checked_performed {pool : Pool World Request Op.Ans Reply} {thread : Nat}
    {request : Request} {op : Op} {next : op.Ans → Prog Op.Ans Reply} (h : Checked pool) :
    Checked (pool.performed sem thread request op next) := by
  intro other productId deviceId found setting hmem
  have hlater := products_le_sem op pool.state
  rcases List.mem_cons.mp hmem with hnew | hold
  · obtain ⟨product, hrow, hkey, -⟩ :=
      admissionCheck_some (admissionCheck_of_event (Prod.mk.inj hnew).2)
    exact Tables.HasProduct.later ⟨product, hrow, hkey⟩ hlater
  · exact (h other productId deviceId found setting hold).later hlater

theorem parsed_length {payload : AuthPayload} {password : Access.Password}
    (h : Access.parseAuth payload = some password) :
    payload.clientId.utf8ByteSize ≤ 64 := by
  unfold Access.parseAuth at h
  split_ifs at h with hlength
  omega

variable {hmacSha1 config} in
-- What an allowed operation makes of sound tables is sound.
theorem Sound.sem {pool : Pool World Request Op.Ans Reply} {thread : Nat} {request : Request}
    {op : Op} (h : Sound pool.state.tables) (hchecked : Checked pool)
    (hallowed : Allowed hmacSha1 config request (history thread pool.log) op) :
    Sound (sem op pool.state).2.tables := by
  rcases tables_sem op pool.state with hsame | ⟨statement, rfl, hexec⟩
  · rw [hsame]
    exact h
  · rw [hexec]
    cases statement with
    | createProduct req => exact h.createProduct hallowed.2
    | updateProduct id req => exact h.updateProduct hallowed.2
    | getProduct | admissionCheck => exact h
    | upsert productId deviceId source =>
        obtain ⟨-, payload, now, password, -, hsigned, -, rfl, hpast⟩ := hallowed
        have hcheck : (⟨.sql (.admissionCheck productId payload.clientId), .ok (false, some true)⟩ :
            Event Op.Ans) ∈
            history thread pool.log := by simp [hpast]
        exact h.upsert (hchecked thread _ _ _ _ (mem_history.mp hcheck))
          (parsed_length hsigned.parsed)

theorem sound_run (moves : List (Move Request)) (hstart : Sound start.tables) :
    Sound (tablesAfter hmacSha1 config start moves) := by
  have hall : Sound (tablesAfter hmacSha1 config start moves) ∧
      Checked (playFrom hmacSha1 config start moves) := by
    apply run_invariant sem (code hmacSha1 config) (code_spec hmacSha1 config)
      fun pool => Sound pool.state.tables ∧ Checked pool
    · exact ⟨hstart, fun _ _ _ _ _ hmem => absurd hmem List.not_mem_nil⟩
    · exact fun _ _ h => h
    · exact fun pool thread request op next _ hallowed h => ⟨h.1.sem h.2 hallowed,
        checked_performed h.2⟩
  exact hall.1

end Runs

section Alone

variable {w : World}

-- What a statement does that neither fails nor is refused for its texts.
theorem run_query {statement : Statement} (hstorable : statement.storable = true)
    (hfault : w.fault w.performed = none) :
    (query statement).run sem w = ((exec w.tables statement).1,
      { w with tables := (exec w.tables statement).2, performed := w.performed + 1 }) := by
  have hrun : runStatement w statement = exec w.tables statement := by
    rw [runStatement, if_pos hstorable, hfault]
  show ((runStatement w statement).1,
    { w with tables := (runStatement w statement).2, performed := w.performed + 1 }) = _
  rw [hrun]

-- What a statement does that fails before it has an effect.
theorem run_query_fault {statement : Statement} {fault : Fault}
    (hstorable : statement.storable = true)
    (hfault : w.fault w.performed = some fault) (happlied : fault.applied = false) :
    (query statement).run sem w = (.error fault.error,
      { w with performed := w.performed + 1 }) := by
  have hrun : runStatement w statement = (.error fault.error, w.tables) := by
    rw [runStatement, if_pos hstorable, hfault]
    simp [happlied]
  show ((runStatement w statement).1,
    { w with tables := (runStatement w statement).2, performed := w.performed + 1 }) = _
  rw [hrun]

-- What is left to do once the clock has been read.
theorem run_auth {hmacSha1 : String → String → String} {config : AuthConfig} {payload : AuthPayload}
    {password : Access.Password} (h : Access.parseAuth payload = some password) :
    (auth hmacSha1 config payload).run sem w =
      (if ¬Access.passesCheck .release config (w.clock w.performed) password then Prog.ret
        Decision.deny
        else if hmacSha1 config.suffix (Access.toSign config payload.clientId password) ≠
          password.hash then
          Prog.ret Decision.deny
        else
          match payload.username with
          | none => Prog.ret Decision.deny
          | some productId => checkDeviceAdmission productId payload.clientId).run sem
        { w with performed := w.performed + 1 } := by
  rw [auth, h]
  rfl

theorem run_checkDeviceAdmission {productId deviceId : String}
    (hcheck : DeviceRepo.admissionCheck w.tables productId deviceId = (false, some true))
    (hstorable : (Statement.admissionCheck productId deviceId).storable = true)
    (hfault : ∀ number, w.fault number = none)
    (hok : (DeviceRepo.upsert w.tables productId deviceId .auto).1 = .ok ()) :
    ((checkDeviceAdmission productId deviceId).run sem w).1 = .allow := by
  have hstorable' : (Statement.upsert productId deviceId .auto).storable = true := hstorable
  rw [checkDeviceAdmission, bind_eq, run_bind, run_query hstorable (hfault _)]
  simp only [exec, hcheck, bind_eq, run_bind]
  rw [@run_query { w with performed := w.performed + 1 } _ hstorable' (hfault _)]
  simp only [exec, hok]
  rfl

-- A signed device of a product that provisions is admitted.
theorem run_auth_provisioned {hmacSha1 : String → String → String} {config : AuthConfig}
    {payload : AuthPayload} {password : Access.Password} {productId : String}
    (hsigned : Signed hmacSha1 config payload (w.clock w.performed) password)
    (husername : payload.username = some productId)
    (hcheck : DeviceRepo.admissionCheck w.tables productId payload.clientId = (false, some true))
    (hstorable : (Statement.admissionCheck productId payload.clientId).storable = true)
    (hfault : ∀ number, w.fault number = none)
    (hok : (DeviceRepo.upsert w.tables productId payload.clientId .auto).1 = .ok ()) :
    ((auth hmacSha1 config payload).run sem w).1 = .allow := by
  rw [run_auth hsigned.parsed, if_neg (not_not.mpr hsigned.fresh),
    if_neg (not_not.mpr hsigned.hash), husername]
  exact run_checkDeviceAdmission hcheck hstorable hfault hok

-- A valid request for a product that is not there creates it.
theorem run_createProduct {req : CreateProductRequest}
    (hvalid : validateCreateProductRequest req = .ok ())
    (hstorable : (Statement.createProduct req).storable = true)
    (hfault : w.fault w.performed = none) :
    ((createProduct req).run sem w).1 = createdAnswer
      (ProductRepo.createProduct w.tables req).1 := by
  rw [createProduct, hvalid]
  simp only [bind_eq, run_bind]
  rw [run_query hstorable hfault]
  simp only [exec]
  cases hanswer : (ProductRepo.createProduct w.tables req).1 with
  | ok product => rfl
  | error e =>
      rw [createdAnswer]
      by_cases hunique : e = .database (some pgUniqueViolation)
      · simp only [if_pos hunique]
        rfl
      · simp only [if_neg hunique]
        rfl

end Alone

end RmqttThings.Registry
