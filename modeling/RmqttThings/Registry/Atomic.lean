import RmqttThings.Effects.Solo
import RmqttThings.Registry.Provisioning

namespace RmqttThings.Registry

open Access (AuthConfig AuthPayload AuthEnv AccessTables Decision auth_eq verifySignature)
open Effects Effects.Prog Effects.Pool Relational UniqueTable

-- The tables as one admission reads them.
def Tables.access (tables : Tables) : AccessTables :=
  ⟨tables.devices.rows.map Device.key,
    tables.products.rows.map fun product => (product.modelNo, product.autoProvisioning)⟩

section Access

variable {tables : Tables} {productId deviceId : String}

theorem contains_access : tables.access.devices.contains (productId, deviceId) =
    (tables.devices.findKey (productId, deviceId)).isSome := by
  rw [Bool.eq_iff_iff, List.contains_iff_mem, findKey, List.find?_isSome]
  simp only [Tables.access, List.mem_map, decide_eq_true_eq]

theorem lookup_access (rows : List Product) :
    (rows.map fun product => (product.modelNo, product.autoProvisioning)).lookup productId =
      (rows.find? fun product => product.modelNo = productId).map Product.autoProvisioning := by
  induction rows with
  | nil => rfl
  | cons product rows ih =>
      by_cases hkey : product.modelNo = productId
      · simp [hkey]
      · rw [List.map_cons, List.lookup_cons, List.find?_cons, ih]
        have hkey' : productId ≠ product.modelNo := fun h => hkey h.symm
        simp [hkey, beq_false_of_ne hkey']

theorem admissionCheck_access :
    Access.admissionCheck tables.access productId deviceId = DeviceRepo.admissionCheck tables
      productId deviceId := by
  rw [Access.admissionCheck, DeviceRepo.admissionCheck, contains_access]
  exact congrArg _ (lookup_access tables.products.rows)

-- While ids are left, the insertion is the one of the tables that admission reads.
theorem upsert_access (hserial : tables.devices.nextId ≤ maxBigSerial)
    (source : RegistrationSource) :
    (DeviceRepo.upsert tables productId deviceId source).1 = .ok () ∧
      (DeviceRepo.upsert tables productId deviceId source).2.access =
        Access.upsertDevice tables.access productId deviceId := by
  unfold DeviceRepo.upsert UniqueTable.insert
  rw [if_pos hserial, Access.upsertDevice, contains_access]
  by_cases hfree : ∀ other ∈ tables.devices.rows,
      other.key ≠ (DeviceRepo.newDevice productId deviceId source tables.devices.nextId).key
  · have hnone : tables.devices.findKey (productId, deviceId) = none :=
      findKey_eq_none_iff.mpr hfree
    rw [dif_pos hfree, hnone]
    refine ⟨rfl, ?_⟩
    simp [Tables.access, append, DeviceRepo.newDevice, Device.key]
  · have hsome : (tables.devices.findKey (productId, deviceId)).isSome = true := by
      rw [Option.isSome_iff_ne_none, ne_eq, findKey_eq_none_iff]
      exact hfree
    rw [dif_neg hfree, hsome]
    exact ⟨rfl, rfl⟩

end Access

section Moment

variable (hmacSha1 : String → String → String) (config : AuthConfig)

variable {hmacSha1 config} in
theorem auth_signed {payload : AuthPayload} {env : AuthEnv} {password : Access.Password}
    {tables : AccessTables} (h : Signed hmacSha1 config payload env.now password) :
    Access.auth hmacSha1 config env payload tables =
      match payload.username with
      | none => (.deny, tables)
      | some productId => Access.checkDeviceAdmission env productId payload.clientId tables := by
  rw [auth_eq, h.parsed]
  dsimp only
  rewrite [if_pos h.fresh, verifySignature, if_neg (not_not.mpr h.hash)]
  cases payload.username with
  | none => rfl
  | some productId => rfl

variable {hmacSha1 config} in
theorem auth_unsigned {payload : AuthPayload} {env : AuthEnv} {password : Access.Password}
    {tables : AccessTables} (hparsed : Access.parseAuth payload = some password)
    (h : ¬Signed hmacSha1 config payload env.now password) :
    Access.auth hmacSha1 config env payload tables = (.deny, tables) := by
  rw [auth_eq, hparsed]
  dsimp only
  by_cases hfresh : Access.passesCheck .release config env.now password = true
  · have hhash : hmacSha1 config.suffix (Access.toSign config payload.clientId password) ≠
        password.hash :=
      fun hhash => h ⟨hparsed, hfresh, hhash⟩
    rw [if_pos hfresh, verifySignature, if_pos hhash]
  · rw [if_neg hfresh]

-- What the admission decides on an answer of the check and one of the insertion.
theorem checkDeviceAdmission_decision {env : AuthEnv} {productId deviceId : String}
    {tables : Tables} {found : Bool}
    {setting : Option Bool} (hcheck : DeviceRepo.admissionCheck tables productId deviceId =
      (found, setting))
    (hfault : env.checkFault = none) :
    (Access.checkDeviceAdmission env productId deviceId tables.access).1 =
      if found = true ∨ (setting = some true ∧ env.upsertFault = none) then .allow else .deny := by
  rw [Access.checkDeviceAdmission, hfault, admissionCheck_access, hcheck]
  cases found with
  | true => rfl
  | false =>
      match setting with
      | none | some false => rfl
      | some true => cases env.upsertFault <;> rfl

-- What a request has met by its own past: the clock it has read, and the statements that have
-- failed. The clock matters to no request that has not read it.
def clockRead (past : Past) : Option Int := past.findSome? fun event =>
  match event with
  | ⟨.now, now⟩ => some now
  | _ => none

def checkFailed (past : Past) : Bool := past.any fun event =>
  match event with
  | ⟨.sql (.admissionCheck _ _), .error _⟩ => true
  | _ => false

def upsertFailed (past : Past) : Bool := past.any fun event =>
  match event with
  | ⟨.sql (.upsert _ _ _), .error _⟩ => true
  | _ => false

def metEnv (now : Int) (past : Past) : AuthEnv :=
  ⟨(clockRead past).getD now, if checkFailed past then some "" else none, if upsertFailed
    past then some "" else none⟩

-- Whatever else happens while a request is served, its decision is the one that the atomic
-- `auth` makes on the tables of one moment between its start and its answer, with the clock that
-- it has read in between and with the failures that it has met.
theorem decided_at_one_moment (start : World) (moves : List (Move Request)) (thread : Nat)
    (payload : AuthPayload) (decision : Decision)
    (h : (playFrom hmacSha1 config start moves).threads[thread]? =
      some ⟨.auth payload, .ret (.decision decision)⟩) :
    (∃ moment, Serving sem (code hmacSha1 config) moves start thread (.auth payload) moment ∧ ∀ now,
      (Access.auth hmacSha1 config
        (metEnv now (history thread (playFrom hmacSha1 config start moves).log)) payload
        (tablesAfter hmacSha1 config start moment).access).1 = decision) ∧
    ∀ now, clockRead (history thread (playFrom hmacSha1 config start moves).log) = some now →
      ∃ moment, Serving sem (code hmacSha1 config) moves start thread (.auth payload) moment ∧
        now = start.clock (playFrom hmacSha1 config start moment).state.performed := by
  have houtcome := outcome_of_thread h
  obtain ⟨spawned, hspawned⟩ := serving_spawned sem (code hmacSha1 config) moves start h
  have hmoment : ∀ productId result,
      (⟨.sql (.admissionCheck productId payload.clientId), .ok result⟩ : Event Op.Ans) ∈
      history thread (playFrom hmacSha1 config start moves).log →
        ∃ moment, Serving sem (code hmacSha1 config) moves start thread (.auth payload) moment ∧
          DeviceRepo.admissionCheck (tablesAfter hmacSha1 config start moment) productId
            payload.clientId = result := by
    intro productId result hmem
    obtain ⟨later, earlier, hlog, hanswer⟩ :=
      entry_of_history sem (code hmacSha1 config) moves start hmem
    obtain ⟨moment, hserving, hearlier⟩ :=
      serving_of_entry sem (code hmacSha1 config) moves start h hlog
    refine ⟨moment, hserving, ?_⟩
    rw [tables_eq_replay, hearlier]
    exact admissionCheck_of_answer hanswer.symm
  constructor
  · generalize hreply : Reply.decision decision = reply at houtcome
    generalize hpast :
      history thread (playFrom hmacSha1 config start moves).log = past at houtcome ⊢
    cases houtcome with
    | malformed hparsed =>
        cases hreply
        refine ⟨spawned, hspawned, fun now => ?_⟩
        rw [auth_eq, hparsed]
    | unsigned hparsed hunsigned =>
        cases hreply
        exact ⟨spawned, hspawned, fun _ => congrArg Prod.fst (auth_unsigned hparsed hunsigned)⟩
    | anonymous hsigned husername =>
        cases hreply
        refine ⟨spawned, hspawned, fun now => ?_⟩
        rw [auth_signed hsigned, husername]
    | unchecked e hsigned husername =>
        cases hreply
        refine ⟨spawned, hspawned, fun now => ?_⟩
        rw [auth_signed hsigned, husername]
        rfl
    | @registered _ _ _ productId setting hsigned husername =>
        cases hreply
        obtain ⟨moment, hserving, hcheck⟩ := hmoment productId (true, setting) (by simp [hpast])
        refine ⟨moment, hserving, fun now => ?_⟩
        rw [auth_signed hsigned, husername]
        exact (checkDeviceAdmission_decision hcheck rfl).trans (if_pos (.inl rfl))
    | @notProvisioned _ _ _ productId setting hsigned husername hsetting =>
        cases hreply
        obtain ⟨moment, hserving, hcheck⟩ := hmoment productId (false, setting) (by simp [hpast])
        refine ⟨moment, hserving, fun now => ?_⟩
        rw [auth_signed hsigned, husername]
        exact (checkDeviceAdmission_decision hcheck rfl).trans (if_neg (by simp [hsetting]))
    | @provisioned _ _ _ productId answer hsigned husername =>
        cases hreply
        obtain ⟨moment, hserving, hcheck⟩ := hmoment productId (false, some true) (by simp [hpast])
        refine ⟨moment, hserving, fun now => ?_⟩
        rw [auth_signed hsigned, husername]
        refine (checkDeviceAdmission_decision hcheck rfl).trans ?_
        -- the insertion fails in the atomic request as it has failed in this one
        cases answer with
        | ok _ => rfl
        | error e => rfl
  · intro now hread
    obtain ⟨event, hmem, hevent⟩ := List.exists_of_findSome?_eq_some hread
    obtain ⟨later, earlier, hlog, hanswer⟩ :=
      entry_of_history sem (code hmacSha1 config) moves start hmem
    obtain ⟨moment, hserving, hearlier⟩ :=
      serving_of_entry sem (code hmacSha1 config) moves start h hlog
    refine ⟨moment, hserving, ?_⟩
    rw [state_eq_replay, hearlier, ← clock_replay earlier]
    obtain ⟨op, answer⟩ := event
    cases op with
    | now =>
        obtain rfl : answer = now := Option.some.inj hevent
        exact hanswer
    | sql statement => cases hevent

theorem demo_decided_at_one_moment :
    ∃ moment, Serving sem (code Access.demoHmac Access.demoConfig) (demoMoves (.auth Access.sensor))
      demoWorld 0
        (.auth Access.sensor) moment ∧ ∀ now, (Access.auth Access.demoHmac Access.demoConfig
      (metEnv now (history 0 (playFrom Access.demoHmac Access.demoConfig demoWorld
        (demoMoves (.auth Access.sensor))).log)) Access.sensor
      (tablesAfter Access.demoHmac Access.demoConfig demoWorld moment).access).1 = .allow := by
  have hthread := thread_demoMoves (.auth Access.sensor)
  rw [demo_allow] at hthread
  exact (decided_at_one_moment Access.demoHmac Access.demoConfig demoWorld
    (demoMoves (.auth Access.sensor)) 0 Access.sensor .allow hthread).1

end Moment

section Alone

variable {w : World} {productId deviceId : String}

-- The environment that a request meets which begins now and is not interrupted.
def World.env (w : World) : AuthEnv :=
  ⟨w.clock w.performed, (w.fault (w.performed + 1)).map fun _ => "",
    (w.fault (w.performed + 2)).map fun _ => ""⟩

theorem checkDeviceAdmission_refines {env : AuthEnv}
    (hcheck : env.checkFault = (w.fault w.performed).map fun _ => "")
    (hupsert : env.upsertFault = (w.fault (w.performed + 1)).map fun _ => "")
    (hfault : ∀ number fault, w.fault number = some fault → fault.applied = false)
    (hstorable : (Statement.admissionCheck productId deviceId).storable = true)
    (hserial : w.tables.devices.nextId ≤ maxBigSerial) :
    ((checkDeviceAdmission productId deviceId).run sem w).1 =
        (Access.checkDeviceAdmission env productId deviceId w.tables.access).1 ∧
      ((checkDeviceAdmission productId deviceId).run sem w).2.tables.access =
        (Access.checkDeviceAdmission env productId deviceId w.tables.access).2 := by
  rw [checkDeviceAdmission, bind_eq, run_bind, Access.checkDeviceAdmission, hcheck, hupsert]
  cases hfirst : w.fault w.performed with
  | some fault =>
      rw [run_query_fault hstorable hfirst (hfault _ _ hfirst)]
      exact ⟨rfl, rfl⟩
  | none =>
      rw [run_query hstorable hfirst]
      simp only [exec, Option.map_none, admissionCheck_access]
      obtain ⟨found, setting⟩ := DeviceRepo.admissionCheck w.tables productId deviceId
      cases found with
      | true => exact ⟨rfl, rfl⟩
      | false =>
          rcases setting with _ | _ | _
          · exact ⟨rfl, rfl⟩
          · exact ⟨rfl, rfl⟩
          · have hstorable' : (Statement.upsert productId deviceId .auto).storable = true :=
              hstorable
            simp only [bind_eq, run_bind]
            cases hsecond : w.fault (w.performed + 1) with
            | some fault =>
                rw [run_query_fault hstorable' hsecond (hfault _ _ hsecond)]
                exact ⟨rfl, rfl⟩
            | none =>
                rw [run_query hstorable' hsecond]
                obtain ⟨hok, haccess⟩ := @upsert_access w.tables productId deviceId hserial .auto
                simp only [exec, hok]
                exact ⟨rfl, haccess⟩

-- A request that is not interrupted is the atomic `auth`: it decides as it and leaves the
-- tables as it, in every world in which no answer is lost after the statement took effect.
theorem auth_refines_atomic (hmacSha1 : String → String → String) (config : AuthConfig) (w : World)
    (payload : AuthPayload) (hfault : ∀ number fault, w.fault number = some fault →
      fault.applied = false)
    (hstorable : ∀ productId, payload.username = some productId →
      (Statement.admissionCheck productId payload.clientId).storable = true)
    (hserial : w.tables.devices.nextId ≤ maxBigSerial) :
    ((auth hmacSha1 config payload).run sem w).1 =
      (Access.auth hmacSha1 config w.env payload w.tables.access).1 ∧
      ((auth hmacSha1 config payload).run sem w).2.tables.access =
        (Access.auth hmacSha1 config w.env payload w.tables.access).2 := by
  cases hparsed : Access.parseAuth payload with
  | none =>
      rw [auth, auth_eq, hparsed]
      exact ⟨rfl, rfl⟩
  | some password =>
      rw [run_auth hparsed]
      by_cases hsigned : Signed hmacSha1 config payload w.env.now password
      · have hfresh : Access.passesCheck .release config (w.clock w.performed) password = true :=
          hsigned.fresh
        rw [auth_signed hsigned, if_neg (not_not.mpr hfresh), if_neg (not_not.mpr hsigned.hash)]
        cases husername : payload.username with
        | none => exact ⟨rfl, rfl⟩
        | some productId =>
            exact checkDeviceAdmission_refines rfl rfl hfault (hstorable productId husername)
              hserial
      · rw [auth_unsigned hparsed hsigned]
        by_cases hfresh : Access.passesCheck .release config (w.clock w.performed) password = true
        · have hhash : hmacSha1 config.suffix (Access.toSign config payload.clientId password) ≠
              password.hash :=
            fun hhash => hsigned ⟨hparsed, hfresh, hhash⟩
          rw [if_neg (not_not.mpr hfresh), if_pos hhash]
          exact ⟨rfl, rfl⟩
        · rw [if_pos hfresh]
          exact ⟨rfl, rfl⟩

theorem demo_auth_refines_atomic :
    ((auth Access.demoHmac Access.demoConfig Access.sensor).run sem demoWorld).2.tables.access =
      (Access.auth Access.demoHmac Access.demoConfig demoWorld.env Access.sensor
        demoTables.access).2 := by
  have hfault : ∀ number fault, demoWorld.fault number = some fault → fault.applied = false := by
    intro number fault h
    cases h
  have hserial : demoWorld.tables.devices.nextId ≤ maxBigSerial := show 1 ≤ 2 ^ 63 - 1 by omega
  have hstorable : ∀ productId, Access.sensor.username = some productId →
      (Statement.admissionCheck productId Access.sensor.clientId).storable = true := by
    intro productId h
    obtain rfl : "product-a" = productId := Option.some.inj h
    decide
  exact (auth_refines_atomic Access.demoHmac Access.demoConfig demoWorld Access.sensor hfault
    hstorable hserial).2

end Alone

end RmqttThings.Registry
