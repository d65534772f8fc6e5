import RmqttThings.Effects.Solo
import RmqttThings.Registry.Runs

namespace RmqttThings.Registry

open Access (AuthConfig AuthPayload AuthEnv AccessTables Decision Isolated isolated_of_not_wild
  Wild)
open Api (ApiError)
open Commands (validateIdentifier)
open Effects Effects.Prog Effects.Pool Relational UniqueTable

section Answers

variable {hmacSha1 : String → String → String} {config : AuthConfig}

-- The two ways to be admitted.
theorem outcome_allow {payload : AuthPayload} {past : Past}
    (h : Outcome hmacSha1 config (.auth payload) past (.decision .allow)) :
    ∃ productId now password, payload.username = some productId ∧
      Signed hmacSha1 config payload now password ∧
      ((∃ setting, past = [⟨.sql (.admissionCheck productId payload.clientId), .ok (true, setting)⟩,
        ⟨.now, now⟩]) ∨ past = [⟨.sql (.upsert productId payload.clientId .auto), .ok ()⟩,
          ⟨.sql (.admissionCheck productId payload.clientId), .ok (false, some true)⟩,
            ⟨.now, now⟩]) := by
  generalize hreply : Reply.decision .allow = reply at h
  cases h with
  | registered setting hsigned husername => exact ⟨_, _, _, husername, hsigned, .inl ⟨setting, rfl⟩⟩
  | provisioned answer hsigned husername =>
      cases answer with
      | ok _ => exact ⟨_, _, _, husername, hsigned, .inr rfl⟩
      | error e => cases hreply
  | malformed | unsigned | anonymous | unchecked | notProvisioned => cases hreply

theorem outcome_created {req : CreateProductRequest} {past : Past}
    {result : Except ApiError Product}
    (h : Outcome hmacSha1 config (.createProduct req) past (.created result)) :
    (∃ e, validateCreateProductRequest req = .error e ∧ past = [] ∧ result = .error e) ∨
      ∃ answer, past = [⟨.sql (.createProduct req), answer⟩] ∧ result = createdAnswer answer := by
  cases h with
  | invalidCreate h => exact .inl ⟨_, h, rfl, rfl⟩
  | created answer => exact .inr ⟨answer, rfl, rfl⟩

theorem createdAnswer_ok {answer : Except DbError Product} {product : Product}
    (h : createdAnswer answer = .ok product) :
    answer = .ok product := by
  cases answer with
  | ok found =>
      have hfound : found = product := by simpa only [createdAnswer, Except.ok.injEq] using h
      rw [hfound]
  | error e =>
      rw [createdAnswer] at h
      split_ifs at h

theorem createdAnswer_conflict {answer : Except DbError Product}
    (h : createdAnswer answer = .error (.conflict "产品型号编号已存在")) :
    answer = .error (.database (some pgUniqueViolation)) := by
  cases answer with
  | ok found => cases h
  | error e =>
      rw [createdAnswer] at h
      split_ifs at h with hunique
      · rw [hunique]
      · exact absurd h (by decide)

theorem validateIdentifier_status {id field : String} {e : ApiError}
    (h : validateIdentifier id field = .error e) :
    e.status = .badRequest := by
  unfold validateIdentifier at h
  split_ifs at h
  · cases h
    rfl
  · cases h
    rfl
  · split at h
    · cases h
      rfl
    · cases h

theorem validateName_status {name : String} {e : ApiError} (h : validateName name = .error e) :
    e.status = .badRequest := by
  unfold validateName at h
  split_ifs at h
  · cases h
    rfl
  · cases h
    rfl

theorem validateCreateProductRequest_status {req : CreateProductRequest} {e : ApiError}
    (h : validateCreateProductRequest req = .error e) : e.status = .badRequest := by
  unfold validateCreateProductRequest at h
  cases hname : validateName req.name with
  | error e' =>
      rw [hname] at h
      cases h
      exact validateName_status hname
  | ok checked =>
      rw [hname] at h
      exact validateIdentifier_status h

-- A product that has been created was not there, and is there from then on.
theorem created_ok {w : World} {req : CreateProductRequest} {product : Product}
    (h : (sem (.sql (.createProduct req)) w).1 = .ok product) :
    ¬w.tables.HasProduct req.modelNo ∧
      product ∈ (sem (.sql (.createProduct req)) w).2.tables.products.rows ∧
        product.modelNo = req.modelNo := by
  obtain ⟨hanswer, htables⟩ := exec_of_ok h
  rw [htables]
  rcases insert_cases w.tables.products maxSerial (ProductRepo.newProduct req) fun _ => rfl with
    ⟨row, rfl, hfree, hok, hrows, -⟩ | ⟨e, herror, -, -, -⟩
  · have hproduct : product = ProductRepo.newProduct req w.tables.products.nextId := by
      simp only [exec, ProductRepo.createProduct, hok, Except.mapError, Except.ok.injEq] at hanswer
      exact hanswer.symm
    refine ⟨?_, ?_, by rw [hproduct]; rfl⟩
    · rintro ⟨other, hmem, hkey⟩
      exact hfree other hmem hkey
    · show product ∈ (ProductRepo.createProduct w.tables req).2.products.rows
      rw [products_createProduct, hrows, hproduct]
      exact List.mem_append_right _ List.mem_cons_self
  · simp only [exec, ProductRepo.createProduct, herror, Except.mapError] at hanswer
    cases hanswer

theorem created_conflict {w : World} {req : CreateProductRequest}
    (h : (sem (.sql (.createProduct req)) w).1 = .error (.database (some pgUniqueViolation))) :
    w.tables.HasProduct req.modelNo := by
  have hanswer := exec_of_unique h
  rcases insert_cases w.tables.products maxSerial (ProductRepo.newProduct req) fun _ => rfl with
    ⟨row, -, -, hok, -, -⟩ | ⟨e, herror, -, -, hduplicate⟩
  · simp only [exec, ProductRepo.createProduct, hok, Except.mapError] at hanswer
    cases hanswer
  · simp only [exec, ProductRepo.createProduct, herror, Except.mapError,
      Except.error.injEq] at hanswer
    cases e with
    | duplicate => exact hduplicate rfl
    | exhausted => exact absurd hanswer (by decide)

end Answers

section Log

variable {start : World}

theorem clock_replay (log : List (Nat × Event Op.Ans)) :
    (Pool.replay sem start log).clock = start.clock := by
  induction log with
  | nil => rfl
  | cons entry log ih =>
      have hkeep : ∀ op w, (sem op w).2.clock = w.clock := by
        intro op w
        cases op <;> rfl
      rw [Pool.replay, hkeep, ih]

theorem products_le_replay {earlier log : List (Nat × Event Op.Ans)} (h : earlier <:+ log) :
    (Pool.replay sem start earlier).tables.products ≤ (Pool.replay sem start log).tables.products :=
  replay_mono sem (fun w => w.tables.products) products_le_sem start h

theorem devices_le_replay {earlier log : List (Nat × Event Op.Ans)} (h : earlier <:+ log) :
    (Pool.replay sem start earlier).tables.devices ≤ (Pool.replay sem start log).tables.devices :=
  replay_mono sem (fun w => w.tables.devices) devices_le_sem start h

end Log

section Results

variable (hmacSha1 : String → String → String) (config : AuthConfig) (start : World)

-- Whatever requests overlap, every row keeps what it was validated for, no model number and no
-- device is there twice, no id is used again, and nothing is ever lost.
theorem registry_stays_sound (before after : List (Move Request)) (hstart : Sound start.tables) :
    Sound (tablesAfter hmacSha1 config start (before ++ after)) ∧
      (tablesAfter hmacSha1 config start before).products ≤
        (tablesAfter hmacSha1 config start (before ++ after)).products ∧
      (tablesAfter hmacSha1 config start before).devices.rows <+:
        (tablesAfter hmacSha1 config start (before ++ after)).devices.rows :=
  ⟨sound_run hmacSha1 config start (before ++ after) hstart,
    products_le_run hmacSha1 config start before after,
    devices_prefix_run hmacSha1 config start before after⟩

-- A registry of one product that registers its devices.
def demoTables : Tables :=
  ⟨⟨[⟨1, "Sensor", "product-a", none, .online, true⟩], 2, by decide, by decide, by decide⟩,
    UniqueTable.empty⟩

def demoWorld : World := ⟨demoTables, fun _ => 1760000010, fun _ => none, 0⟩

-- One request, from its start to its answer.
def demoMoves (request : Request) : List (Move Request) :=
  andThen sem (code Access.demoHmac Access.demoConfig) demoWorld [] request

theorem demo_sound : Sound demoTables := by
  obtain ⟨hname, hmodelNo⟩ :
      validateName "Sensor" = .ok () ∧ validateIdentifier "product-a" "model_no" = .ok () := by
    unfold validateName
    decide
  refine ⟨fun product hmem => ?_, fun product hmem => ?_, fun device hmem => ?_,
    fun device hmem => ?_⟩
  · rw [List.mem_singleton.mp hmem]
    exact hname
  · rw [List.mem_singleton.mp hmem]
    exact hmodelNo
  · cases hmem
  · cases hmem

theorem demo_registry_stays_sound :
    Sound (tablesAfter Access.demoHmac Access.demoConfig demoWorld
      (demoMoves (.auth Access.sensor))) := by
  have hsound := (registry_stays_sound Access.demoHmac Access.demoConfig demoWorld []
    (demoMoves (.auth Access.sensor)) demo_sound).1
  rwa [List.nil_append] at hsound

variable {hmacSha1 config start} in
-- The past of a request that has been answered.
theorem outcome_of_thread {moves : List (Move Request)} {thread : Nat} {request : Request}
    {reply : Reply}
    (h : (playFrom hmacSha1 config start moves).threads[thread]? = some ⟨request, .ret reply⟩) :
    Outcome hmacSha1 config request (history thread (playFrom hmacSha1 config start moves).log)
      reply :=
  spec_play sem (code hmacSha1 config) (code_spec hmacSha1 config) moves start thread _ h

variable {hmacSha1 config start} in
theorem tables_eq_replay (moves : List (Move Request)) : tablesAfter hmacSha1 config start moves =
    (Pool.replay sem start (playFrom hmacSha1 config start moves).log).tables :=
  congrArg World.tables (state_eq_replay sem (code hmacSha1 config) moves start)

-- A plain name is no wildcard.
theorem isolated_of_identifier {productId clientId : String}
    (h : validateIdentifier productId "model_no" = .ok ()) :
    Isolated productId clientId ∨ clientId = "+" := by
  by_cases hplus : clientId = "+"
  · exact .inr hplus
  · left
    apply isolated_of_not_wild
    rintro ⟨-, -, rfl | hclient⟩
    · have hok : (validateIdentifier "+" "model_no").isOk = true := by rw [h]; rfl
      exact absurd hok (by decide)
    · exact hplus hclient

-- Who is admitted has signed in time, by the clock it was checked with, for a product of the
-- registry, is in the registry from then on, and is kept to its own topics unless it has named
-- itself like a wildcard. No certificates are issued meanwhile: they add devices of any product.
theorem admitted_is_registered (moves : List (Move Request)) (thread : Nat) (payload : AuthPayload)
    (hstart : Sound start.tables)
    (h : (playFrom hmacSha1 config start moves).threads[thread]? =
      some ⟨.auth payload, .ret (.decision .allow)⟩) :
    ∃ productId, payload.username = some productId ∧
      (tablesAfter hmacSha1 config start moves).HasDevice productId payload.clientId ∧
      (tablesAfter hmacSha1 config start moves).HasProduct productId ∧
      (∃ number password, (⟨.now, start.clock number⟩ : Event Op.Ans) ∈
          history thread (playFrom hmacSha1 config start moves).log ∧
        Signed hmacSha1 config payload (start.clock number) password) ∧
      (Isolated productId payload.clientId ∨ payload.clientId = "+") := by
  obtain ⟨productId, now, password, husername, hsigned, hpast⟩ :=
    outcome_allow (outcome_of_thread h)
  have hsound := sound_run hmacSha1 config start moves hstart
  -- the clock that the password has been compared with
  have hnow : (⟨.now, now⟩ : Event Op.Ans) ∈ history thread
      (playFrom hmacSha1 config start moves).log := by
    rcases hpast with ⟨setting, hpast⟩ | hpast <;> simp [hpast]
  obtain ⟨-, earlier, -, hclock⟩ := entry_of_history sem (code hmacSha1 config) moves start hnow
  have hread : now = start.clock (Pool.replay sem start earlier).performed := by
    rw [← clock_replay earlier]
    exact hclock
  -- the device is there when it has been found, and when it has been inserted
  have hdevice : (tablesAfter hmacSha1 config start moves).HasDevice productId
      payload.clientId := by
    rw [tables_eq_replay]
    rcases hpast with ⟨setting, hpast⟩ | hpast
    · have hmem : (⟨.sql (.admissionCheck productId payload.clientId), .ok (true, setting)⟩ :
          Event Op.Ans) ∈
          history thread (playFrom hmacSha1 config start moves).log := by simp [hpast]
      obtain ⟨later, earlier, hlog, hanswer⟩ :=
        entry_of_history sem (code hmacSha1 config) moves start hmem
      have hcheck := admissionCheck_of_answer hanswer.symm
      obtain ⟨device, hfind⟩ := Option.isSome_iff_exists.mp (congrArg Prod.fst hcheck)
      have hrow : (Pool.replay sem start earlier).tables.HasDevice productId payload.clientId :=
        ⟨device, findKey_eq_some_iff.mp hfind⟩
      exact hrow.later (devices_le_replay (suffix_of_eq_append hlog))
    · have hmem : (⟨.sql (.upsert productId payload.clientId .auto), .ok ()⟩ : Event Op.Ans) ∈
          history thread (playFrom hmacSha1 config start moves).log := by simp [hpast]
      obtain ⟨later, earlier, hlog, hanswer⟩ :=
        entry_of_history sem (code hmacSha1 config) moves start hmem
      obtain ⟨hexec, htables⟩ := exec_of_ok hanswer.symm
      have hrow : (Pool.replay sem start
          ((thread, ⟨.sql (.upsert productId payload.clientId .auto), .ok ()⟩) ::
          earlier)).tables.HasDevice productId payload.clientId := by
        rw [Pool.replay, htables]
        exact hasDevice_upsert hexec
      exact hrow.later (devices_le_replay ⟨later, hlog.symm⟩)
  have hproduct : (tablesAfter hmacSha1 config start moves).HasProduct productId := by
    obtain ⟨device, hmem, hkey⟩ := hdevice
    obtain ⟨hid, -⟩ := Prod.mk.inj hkey
    rw [← hid]
    exact hsound.products device hmem
  obtain ⟨product, hmem, rfl⟩ := hproduct
  exact ⟨product.modelNo, husername, hdevice, ⟨product, hmem, rfl⟩,
    ⟨_, password, hread ▸ hnow, hread ▸ hsigned⟩,
    isolated_of_identifier (hsound.modelNos product hmem)⟩

theorem thread_demoMoves (request : Request) :
    (playFrom Access.demoHmac Access.demoConfig demoWorld (demoMoves request)).threads[0]? =
      some ⟨request, .ret ((code Access.demoHmac Access.demoConfig request).run sem
        demoWorld).1⟩ := by
  rw [playFrom, demoMoves, play_andThen]
  rfl

def demoPassword : Access.Password :=
  ⟨"a1b2c3", "1760000000", "2574976f3d7128dd1b51226d7473d722341b718e", 1760000000⟩

theorem demo_allow :
    ((code Access.demoHmac Access.demoConfig (.auth Access.sensor)).run sem demoWorld).1 =
    .decision .allow := by
  obtain ⟨hparsed, hfresh, hhash, hcheck, hstorable, hok⟩ :
      Access.parseAuth Access.sensor = some demoPassword ∧
      Access.passesCheck .release Access.demoConfig 1760000010 demoPassword = true ∧
      Access.demoHmac Access.demoConfig.suffix (Access.toSign Access.demoConfig "sensor-001"
        demoPassword) =
        demoPassword.hash ∧
      DeviceRepo.admissionCheck demoTables "product-a" "sensor-001" = (false, some true) ∧
      (Statement.admissionCheck "product-a" "sensor-001").storable = true ∧
      (DeviceRepo.upsert demoTables "product-a" "sensor-001" .auto).1 = .ok () := by
    decide
  have hrun : ((auth Access.demoHmac Access.demoConfig Access.sensor).run sem demoWorld).1 =
      .allow :=
    run_auth_provisioned ⟨hparsed, hfresh, hhash⟩ (by rfl) hcheck hstorable (fun _ => rfl) hok
  rw [code, bind_eq, run_bind, hrun]
  rfl

theorem demo_admitted_is_registered :
    (tablesAfter Access.demoHmac Access.demoConfig demoWorld
      (demoMoves (.auth Access.sensor))).HasDevice "product-a" "sensor-001" := by
  have hthread := thread_demoMoves (.auth Access.sensor)
  rw [demo_allow] at hthread
  obtain ⟨productId, husername, hdevice, -⟩ :=
    admitted_is_registered Access.demoHmac Access.demoConfig demoWorld
    (demoMoves (.auth Access.sensor)) 0 Access.sensor demo_sound hthread
  obtain rfl : "product-a" = productId := Option.some.inj husername
  exact hdevice

variable {hmacSha1 config start} in
theorem entry_of_created {moves : List (Move Request)} {thread : Nat} {req : CreateProductRequest}
    {product : Product} (h : (playFrom hmacSha1 config start moves).threads[thread]? =
      some ⟨.createProduct req, .ret (.created (.ok product))⟩) :
    ∃ later earlier, (playFrom hmacSha1 config start moves).log =
        later ++ (thread, ⟨.sql (.createProduct req), .ok product⟩) :: earlier ∧
      ¬(Pool.replay sem start earlier).tables.HasProduct req.modelNo ∧
        product.modelNo = req.modelNo ∧
      product ∈ (Pool.replay sem start ((thread, ⟨.sql (.createProduct req), .ok product⟩) ::
        earlier)).tables.products.rows
    := by
  rcases outcome_created (outcome_of_thread h) with ⟨e, -, -, he⟩ | ⟨answer, hpast, hanswer⟩
  · cases he
  · rw [createdAnswer_ok hanswer.symm] at hpast
    have hmem : (⟨.sql (.createProduct req), .ok product⟩ : Event Op.Ans) ∈
        history thread (playFrom hmacSha1 config start moves).log := by simp [hpast]
    obtain ⟨later, earlier, hlog, hsem⟩ :=
      entry_of_history sem (code hmacSha1 config) moves start hmem
    obtain ⟨hfree, hrow, hkey⟩ := created_ok hsem.symm
    exact ⟨later, earlier, hlog, hfree, hkey, hrow⟩

-- The answers of `create_product` are true, however many requests ask for one model number: one
-- at most is told that it has created the product, which is there from then on under the id of
-- the answer; a conflict means that there is such a product; and an invalid request does nothing.
theorem create_answers_truthful (moves : List (Move Request)) (thread : Nat)
    (req : CreateProductRequest) (result : Except ApiError Product)
    (h : (playFrom hmacSha1 config start moves).threads[thread]? = some ⟨.createProduct req,
      .ret (.created result)⟩) :
    (∀ product, result = .ok product →
      (∃ row ∈ (tablesAfter hmacSha1 config start moves).products.rows, row.id = product.id ∧
        row.modelNo = req.modelNo) ∧
      ∀ other req' product', (playFrom hmacSha1 config start moves).threads[other]? =
        some ⟨.createProduct req', .ret (.created (.ok product'))⟩ → req'.modelNo = req.modelNo →
          other = thread) ∧
    (result = .error (.conflict "产品型号编号已存在") →
      (tablesAfter hmacSha1 config start moves).HasProduct req.modelNo) ∧
    ∀ e, validateCreateProductRequest req = .error e →
      result = .error e ∧ history thread (playFrom hmacSha1 config start moves).log = [] := by
  refine ⟨?_, fun hconflict => ?_, fun e hinvalid => ?_⟩
  · rintro product rfl
    obtain ⟨later, earlier, hlog, hfree, hkey, hrow⟩ := entry_of_created h
    constructor
    · have hlater : (Pool.replay sem start ((thread, ⟨.sql (.createProduct req), .ok product⟩) ::
          earlier)).tables.products ≤
          (Pool.replay sem start (playFrom hmacSha1 config start moves).log).tables.products :=
        products_le_replay ⟨later, hlog.symm⟩
      obtain ⟨now, hnow, hid, hkey'⟩ := hlater.kept product hrow
      rw [tables_eq_replay]
      exact ⟨now, hnow, hid, hkey'.trans hkey⟩
    · intro other req' product' hother hmodel
      obtain ⟨later', earlier', hlog', hfree', hkey', hrow'⟩ := entry_of_created hother
      -- one of the two has found what the other one had created
      rcases same_or_suffix_of_append_eq (hlog.symm.trans hlog') with ⟨-, he, -⟩ | hbefore | hbefore
      · exact (congrArg Prod.fst he).symm
      · have hthere : (Pool.replay sem start _).tables.HasProduct req'.modelNo :=
          ⟨product, hrow, hkey.trans hmodel.symm⟩
        exact absurd (hthere.later (products_le_replay hbefore)) hfree'
      · have hthere : (Pool.replay sem start _).tables.HasProduct req.modelNo :=
          ⟨product', hrow', hkey'.trans hmodel⟩
        exact absurd (hthere.later (products_le_replay hbefore)) hfree
  · subst hconflict
    rcases outcome_created (outcome_of_thread h) with
      ⟨e, hinvalid, -, he⟩ | ⟨answer, hpast, hanswer⟩
    · have hstatus := validateCreateProductRequest_status hinvalid
      simp only [Except.error.injEq] at he
      rw [← he] at hstatus
      cases hstatus
    · rw [createdAnswer_conflict hanswer.symm] at hpast
      have hmem : (⟨.sql (.createProduct req), .error (.database (some pgUniqueViolation))⟩ :
          Event Op.Ans) ∈
          history thread (playFrom hmacSha1 config start moves).log := by simp [hpast]
      obtain ⟨later, earlier, hlog, hsem⟩ :=
        entry_of_history sem (code hmacSha1 config) moves start hmem
      rw [tables_eq_replay]
      exact (created_conflict hsem.symm).later (products_le_replay (suffix_of_eq_append hlog))
  · have hspec := outcome_of_thread h
    have hnever : ∀ answer, history thread (playFrom hmacSha1 config start moves).log ≠
        [⟨.sql (.createProduct req), answer⟩] := by
      intro answer hpast
      have hmem : (⟨.sql (.createProduct req), answer⟩ : Event Op.Ans) ∈
          history thread (playFrom hmacSha1 config start moves).log := by simp [hpast]
      obtain ⟨later, earlier, hlog⟩ := List.append_of_mem (mem_history.mp hmem)
      obtain ⟨served, hserved, hallowed⟩ :=
        allowed_of_log sem (code hmacSha1 config) (code_spec hmacSha1 config) moves
        start later earlier thread _ hlog
      rw [hallowed.2] at hinvalid
      cases hinvalid
    rcases outcome_created hspec with ⟨e', hinvalid', hpast, rfl⟩ | ⟨answer, hpast, -⟩
    · rw [hinvalid', Except.error.injEq] at hinvalid
      exact ⟨by rw [hinvalid], hpast⟩
    · exact absurd hpast (hnever answer)

def demoRequest : CreateProductRequest := ⟨"Gateway", "product-b", none⟩

theorem demo_created :
    ((code Access.demoHmac Access.demoConfig (.createProduct demoRequest)).run sem demoWorld).1 =
    .created (.ok ⟨2, "Gateway", "product-b", none, .online, false⟩) := by
  obtain ⟨hvalid, hstorable, hanswer⟩ : validateCreateProductRequest demoRequest = .ok () ∧
      (Statement.createProduct demoRequest).storable = true ∧
      (ProductRepo.createProduct demoTables demoRequest).1 = .ok ⟨2, "Gateway", "product-b", none,
        .online, false⟩ := by
    unfold validateCreateProductRequest validateName
    decide
  have hrun := @run_createProduct demoWorld demoRequest hvalid hstorable rfl
  rw [code, bind_eq, run_bind, hrun]
  show Reply.created (createdAnswer (ProductRepo.createProduct demoTables demoRequest).1) = _
  rw [hanswer, createdAnswer]

theorem demo_create_answers_truthful :
    ∃ row ∈ (tablesAfter Access.demoHmac Access.demoConfig demoWorld
      (demoMoves (.createProduct demoRequest))).products.rows, row.id = 2 ∧
        row.modelNo = "product-b" := by
  have hthread := thread_demoMoves (.createProduct demoRequest)
  rw [demo_created] at hthread
  exact ((create_answers_truthful Access.demoHmac Access.demoConfig demoWorld
    (demoMoves (.createProduct demoRequest)) 0 demoRequest _ hthread).1 _ rfl).1

end Results

end RmqttThings.Registry
