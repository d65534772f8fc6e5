import RmqttThings.Registry.Handlers

namespace RmqttThings.Registry

open Access (AuthConfig AuthPayload parseAuth passesCheck toSign)
open Api (ApiError)
open Effects Effects.Prog Effects.Pool

abbrev Past := List (Event Op.Ans)

section Local

variable (hmacSha1 : String → String → String) (config : AuthConfig)

-- The password is fresh at this instant, and it is the one of the client.
structure Signed (payload : AuthPayload) (now : Int) (password : Access.Password) : Prop where
  parsed : parseAuth payload = some password
  fresh : passesCheck .release config now password = true
  hash : hmacSha1 config.suffix (toSign config payload.clientId password) = password.hash

-- What a request may do after its own past, newest first.
def Allowed (request : Request) (past : Past) : Op → Prop
  | .now => past = [] ∧ ∃ payload, request = .auth payload
  | .sql (.createProduct req) =>
      request = .createProduct req ∧ validateCreateProductRequest req = .ok ()
  | .sql (.getProduct id) => request = .getProduct id
  | .sql (.updateProduct id req) =>
      request = .updateProduct id req ∧ validateUpdateProductRequest req = .ok ()
  | .sql (.admissionCheck productId deviceId) => ∃ payload now password, request = .auth payload ∧
      Signed hmacSha1 config payload now password ∧ payload.username = some productId ∧
        payload.clientId = deviceId ∧
      past = [⟨.now, now⟩]
  | .sql (.upsert productId deviceId source) =>
      source = .auto ∧ ∃ payload now password, request = .auth payload ∧
      Signed hmacSha1 config payload now password ∧ payload.username = some productId ∧
        payload.clientId = deviceId ∧
      past = [⟨.sql (.admissionCheck productId deviceId), .ok (false, some true)⟩, ⟨.now, now⟩]

-- What `create_product` makes of the answer of the statement.
def createdAnswer : Except DbError Product → Except ApiError Product
  | .ok product => .ok product
  | .error e =>
      if e = .database (some pgUniqueViolation) then .error (.conflict "产品型号编号已存在")
      else .error databaseFailed

-- The ways in which a request ends.
inductive Outcome : Request → Past → Reply → Prop
  | invalidCreate {req : CreateProductRequest} {e : ApiError}
      (h : validateCreateProductRequest req = .error e) :
      Outcome (.createProduct req) [] (.created (.error e))
  | created {req : CreateProductRequest} (answer : Except DbError Product) :
      Outcome (.createProduct req) [⟨.sql (.createProduct req), answer⟩]
        (.created (createdAnswer answer))
  | invalidUpdate {id : Int} {req : UpdateProductRequest} {e : ApiError}
      (h : validateUpdateProductRequest req = .error e) :
      Outcome (.updateProduct id req) [] (.product (.error e))
  | updated {id : Int} {req : UpdateProductRequest} (answer : Except DbError (Option Product)) :
      Outcome (.updateProduct id req) [⟨.sql (.updateProduct id req), answer⟩]
        (.product (productFound answer))
  | found {id : Int} (answer : Except DbError (Option Product)) :
      Outcome (.getProduct id) [⟨.sql (.getProduct id), answer⟩] (.product (productFound answer))
  | malformed {payload : AuthPayload} (h : parseAuth payload = none) :
      Outcome (.auth payload) [] (.decision .deny)
  | unsigned {payload : AuthPayload} {now : Int} {password : Access.Password}
      (hparsed : parseAuth payload = some password)
      (h : ¬Signed hmacSha1 config payload now password) :
      Outcome (.auth payload) [⟨.now, now⟩] (.decision .deny)
  | anonymous {payload : AuthPayload} {now : Int} {password : Access.Password}
      (hsigned : Signed hmacSha1 config payload now password) (h : payload.username = none) :
      Outcome (.auth payload) [⟨.now, now⟩] (.decision .deny)
  | unchecked {payload : AuthPayload} {now : Int} {password : Access.Password} {productId : String}
      (e : DbError) (hsigned : Signed hmacSha1 config payload now password)
      (h : payload.username = some productId) :
      Outcome (.auth payload) [⟨.sql (.admissionCheck productId payload.clientId), .error e⟩,
        ⟨.now, now⟩] (.decision .deny)
  | registered {payload : AuthPayload} {now : Int} {password : Access.Password} {productId : String}
      (setting : Option Bool) (hsigned : Signed hmacSha1 config payload now password)
      (h : payload.username = some productId) :
      Outcome (.auth payload) [⟨.sql (.admissionCheck productId payload.clientId),
        .ok (true, setting)⟩, ⟨.now, now⟩] (.decision .allow)
  | notProvisioned {payload : AuthPayload} {now : Int} {password : Access.Password}
      {productId : String} {setting : Option Bool}
      (hsigned : Signed hmacSha1 config payload now password)
      (h : payload.username = some productId) (hsetting : setting ≠ some true) :
      Outcome (.auth payload) [⟨.sql (.admissionCheck productId payload.clientId),
        .ok (false, setting)⟩, ⟨.now, now⟩] (.decision .deny)
  | provisioned {payload : AuthPayload} {now : Int} {password : Access.Password}
      {productId : String} (answer : Except DbError Unit)
      (hsigned : Signed hmacSha1 config payload now password)
      (h : payload.username = some productId) :
      Outcome (.auth payload) [⟨.sql (.upsert productId payload.clientId .auto), answer⟩,
        ⟨.sql (.admissionCheck productId payload.clientId), .ok (false, some true)⟩, ⟨.now, now⟩]
        (.decision (if answer.isOk then .allow else .deny))

theorem createProduct_spec (req : CreateProductRequest) :
    Spec (Allowed hmacSha1 config (.createProduct req))
      (fun result past => Outcome hmacSha1 config (.createProduct req) past (.created result))
        (createProduct req) [] := by
  unfold createProduct
  cases hvalid : validateCreateProductRequest req with
  | error e => exact .invalidCreate hvalid
  | ok checked =>
      refine ⟨⟨rfl, hvalid⟩, fun answer => ?_⟩
      cases answer with
      | ok product => exact .created (.ok product)
      | error e =>
          have houtcome : Outcome hmacSha1 config (.createProduct req)
              [⟨.sql (.createProduct req), .error e⟩]
            (.created (createdAnswer (.error e))) := .created (.error e)
          show Spec _ _ (if e = .database (some pgUniqueViolation) then .ret _ else .ret _) _
          by_cases hunique : e = .database (some pgUniqueViolation)
          · rw [if_pos hunique]
            rw [createdAnswer, if_pos hunique] at houtcome
            exact houtcome
          · rw [if_neg hunique]
            rw [createdAnswer, if_neg hunique] at houtcome
            exact houtcome

theorem updateProduct_spec (id : Int) (req : UpdateProductRequest) :
    Spec (Allowed hmacSha1 config (.updateProduct id req))
      (fun result past => Outcome hmacSha1 config (.updateProduct id req) past (.product result))
      (updateProduct id req) [] := by
  unfold updateProduct
  cases hvalid : validateUpdateProductRequest req with
  | error e => exact .invalidUpdate hvalid
  | ok checked => exact ⟨⟨rfl, hvalid⟩, fun answer => .updated answer⟩

theorem getProduct_spec (id : Int) :
    Spec (Allowed hmacSha1 config (.getProduct id))
      (fun result past => Outcome hmacSha1 config (.getProduct id) past (.product result))
        (getProduct id) [] :=
  ⟨rfl, fun answer => .found answer⟩

variable {hmacSha1 config} in
theorem checkDeviceAdmission_spec {payload : AuthPayload} {now : Int} {password : Access.Password}
    {productId : String} (hsigned : Signed hmacSha1 config payload now password)
    (husername : payload.username = some productId) :
    Spec (Allowed hmacSha1 config (.auth payload))
      (fun decision past => Outcome hmacSha1 config (.auth payload) past (.decision decision))
      (checkDeviceAdmission productId payload.clientId) [⟨.now, now⟩] := by
  refine ⟨⟨payload, now, password, rfl, hsigned, husername, rfl, rfl⟩, fun answer => ?_⟩
  match answer with
  | .error e => exact .unchecked e hsigned husername
  | .ok (true, setting) => exact .registered setting hsigned husername
  | .ok (false, some false) => exact .notProvisioned hsigned husername (by decide)
  | .ok (false, none) => exact .notProvisioned hsigned husername (by decide)
  | .ok (false, some true) =>
      refine ⟨⟨rfl, payload, now, password, rfl, hsigned, husername, rfl, rfl⟩, fun answer => ?_⟩
      cases answer with
      | error e => exact .provisioned (.error e) hsigned husername
      | ok _ => exact .provisioned (.ok ()) hsigned husername

theorem auth_spec (payload : AuthPayload) :
    Spec (Allowed hmacSha1 config (.auth payload))
      (fun decision past => Outcome hmacSha1 config (.auth payload) past (.decision decision))
      (auth hmacSha1 config payload) [] := by
  unfold auth
  cases hparsed : parseAuth payload with
  | none => exact .malformed hparsed
  | some password =>
      refine ⟨⟨rfl, payload, rfl⟩, fun now => ?_⟩
      show Spec _ _ (if _ then _ else _) _
      by_cases hfresh : passesCheck .release config now password = true
      · rw [if_neg (not_not.mpr hfresh)]
        by_cases hhash : hmacSha1 config.suffix (toSign config payload.clientId password) =
          password.hash
        · rw [if_neg (not_not.mpr hhash)]
          have hsigned : Signed hmacSha1 config payload now password := ⟨hparsed, hfresh, hhash⟩
          cases husername : payload.username with
          | none => exact .anonymous hsigned husername
          | some productId => exact checkDeviceAdmission_spec hsigned husername
        · rw [if_pos hhash]
          exact .unsigned hparsed fun hsigned => hhash hsigned.hash
      · rw [if_pos hfresh]
        exact .unsigned hparsed fun hsigned => hfresh hsigned.fresh

variable {hmacSha1 config} in
theorem reply_spec {α : Type} {request : Request} {program : Code α} {reply : α → Reply}
    (h : Spec (Allowed hmacSha1 config request)
      (fun result past => Outcome hmacSha1 config request past (reply result)) program []) :
    Spec (Allowed hmacSha1 config request) (fun reply past => Outcome hmacSha1 config request
      past reply) (program >>= fun result => pure (reply result)) [] :=
  Spec.seq h fun _ _ houtcome => houtcome

theorem code_spec (request : Request) :
    Spec (Allowed hmacSha1 config request) (fun reply past => Outcome hmacSha1 config request
      past reply) (code hmacSha1 config request) [] := by
  cases request with
  | createProduct req => exact reply_spec (createProduct_spec hmacSha1 config req)
  | updateProduct id req => exact reply_spec (updateProduct_spec hmacSha1 config id req)
  | getProduct id => exact reply_spec (getProduct_spec hmacSha1 config id)
  | auth payload => exact reply_spec (auth_spec hmacSha1 config payload)

end Local

end RmqttThings.Registry
