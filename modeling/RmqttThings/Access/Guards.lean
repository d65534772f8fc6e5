import RmqttThings.Access.ClientIp
import RmqttThings.Login.Cookies

namespace RmqttThings.Access

open Api (ApiError)
open Commands (startsWith startsWith_iff)
open Login (getCookie)

-- An error of a handler, with the status 401 beside the others.
inductive AuthError where
  | unauthorizedWith (message : String)
  | api (error : ApiError)
  deriving DecidableEq

namespace AuthError

def unauthorized : AuthError := .unauthorizedWith "unauthorized"

def forbidden : AuthError := .api (.forbiddenWith "forbidden")

end AuthError

inductive Method where
  | get
  | head
  | post
  | put
  | patch
  | delete
  | options
  | other (name : String)
  deriving DecidableEq

structure Request where
  method : Method
  path : String
  headers : HeaderMap
  -- The address of the connection.
  peer : Option IpAddr

structure Rule where
  resource : String
  action : String
  deriving DecidableEq

structure PermissionCheckResponse where
  allowed : Bool
  userId : Option String
  deriving DecidableEq

inductive HeraldError where
  | unauthorized
  | forbidden
  | other
  deriving DecidableEq

-- `str::strip_prefix`.
def stripPrefix (text start : String) : Option String :=
  if startsWith text start then some (String.ofList (text.toList.drop start.toList.length))
  else none

def productPaths : List String := ["/admin/product", "/admin/valid", "/admin/file"]

def devicePaths : List String :=
  ["/admin/device", "/admin/property", "/admin/event", "/admin/service", "/admin/alarm-rule",
    "/admin/alarm", "/admin/factory"]

def certPaths : List String := ["/admin/ca", "/admin/ota"]

def resourceOf (path : String) : Option String :=
  if productPaths.any (startsWith path) then some "product"
  else if devicePaths.any (startsWith path) then some "device"
  else if certPaths.any (startsWith path) then some "cert"
  else none

def actionOf : Method → Option String
  | .get => some "read"
  | .post | .put | .patch | .delete => some "write"
  | _ => none

def extractPermission (path : String) (method : Method) : Option Rule := do
  let resource ← resourceOf ((stripPrefix path "/api").getD path)
  let action ← actionOf method
  return ⟨resource, action⟩

def classifyAuthError : HeraldError → AuthError
  | .unauthorized => .unauthorized
  | .forbidden => .forbidden
  | .other => .api (.serviceUnavailable "auth service unavailable")

def extractAuthToken (headers : HeaderMap) : Option String := getCookie headers "X-Auth"

-- What Herald says of a token and a rule.
abbrev CheckPermission := String → Rule → Except HeraldError PermissionCheckResponse

-- The user that the request goes on for.
def heraldAuthMiddleware (checkPermission : CheckPermission) (request : Request) :
    Except AuthError String :=
  match extractAuthToken request.headers with
  | none => .error .unauthorized
  | some token =>
      match extractPermission request.path request.method with
      | none => .error .forbidden
      | some rule =>
          match checkPermission token rule with
          | .ok permission =>
              match permission.userId with
              | some userId => if permission.allowed then .ok userId else .error .forbidden
              | none => .error .unauthorized
          | .error error => .error (classifyAuthError error)

def internalIpMiddleware (request : Request) : Except AuthError Unit :=
  match extractClientIp request.headers request.peer with
  | some ip =>
      if isPrivateIp ip then .ok ()
      else .error (.api (.forbiddenWith "access denied: internal network only"))
  | none => .error (.api (.forbiddenWith "access denied: internal network only"))

def factoryAuthMiddleware (apiKeys : List String) (headers : HeaderMap) : Except AuthError Unit :=
  match ((headers.lookup "authorization").bind toStr).bind (stripPrefix · "Bearer ") with
  | none => .error (.unauthorizedWith "Invalid factory API key")
  | some bearer =>
      if apiKeys.any (bearer == ·) then .ok ()
      else .error (.unauthorizedWith "Invalid factory API key")

section Specs

theorem stripPrefix_eq_some_iff {text start rest : String} :
    stripPrefix text start = some rest ↔ text = start ++ rest := by
  unfold stripPrefix
  constructor
  · intro h
    split_ifs at h with hstarts
    obtain ⟨tail, htail⟩ := startsWith_iff.mp hstarts
    rw [← htail, List.drop_left, Option.some.injEq] at h
    rw [← String.toList_inj, String.toList_append, ← htail, ← h, String.toList_ofList]
  · rintro rfl
    rw [if_pos (startsWith_iff.mpr ⟨rest.toList, (String.toList_append ..).symm⟩),
      String.toList_append, List.drop_left, String.ofList_toList]

-- The request goes on for the user that Herald names, under a rule that Herald allows.
theorem heraldAuthMiddleware_ok_iff {checkPermission : CheckPermission} {request : Request}
    {user : String} :
    heraldAuthMiddleware checkPermission request = .ok user ↔
      ∃ token rule, extractAuthToken request.headers = some token ∧
        extractPermission request.path request.method = some rule ∧
        checkPermission token rule = .ok ⟨true, some user⟩ := by
  unfold heraldAuthMiddleware
  constructor
  · intro h
    split at h
    · cases h
    · next token htoken =>
      split at h
      · cases h
      · next rule hrule =>
        split at h
        · next permission hcheck =>
          obtain ⟨allowed, userId⟩ := permission
          split at h
          · next userId hid =>
            simp only at hid h
            subst hid
            cases allowed with
            | false => cases h
            | true =>
                cases h
                exact ⟨token, rule, htoken, hrule, hcheck⟩
          · cases h
        · cases h
  · rintro ⟨token, rule, htoken, hrule, hcheck⟩
    rw [htoken, hrule]
    simp only [hcheck, if_true]

theorem internalIpMiddleware_ok_iff {request : Request} :
    internalIpMiddleware request = .ok () ↔ ∃ ip, extractClientIp request.headers request.peer =
      some ip ∧ ip.Private := by
  unfold internalIpMiddleware
  constructor
  · intro h
    split at h
    · next ip hip =>
      split_ifs at h with hprivate
      exact ⟨ip, hip, (isPrivateIp_iff ip).mp hprivate⟩
    · cases h
  · rintro ⟨ip, hip, hprivate⟩
    rw [hip]
    simp only [(isPrivateIp_iff ip).mpr hprivate, if_true]

theorem factoryAuthMiddleware_ok_iff {apiKeys : List String} {headers : HeaderMap} :
    factoryAuthMiddleware apiKeys headers = .ok () ↔
      ∃ key ∈ apiKeys, (headers.lookup "authorization").bind toStr = some ("Bearer " ++ key) := by
  unfold factoryAuthMiddleware
  constructor
  · intro h
    split at h
    · cases h
    · next bearer hbearer =>
      obtain ⟨value, hvalue, hstrip⟩ := Option.bind_eq_some_iff.mp hbearer
      split_ifs at h with hany
      obtain ⟨key, hmem, hkey⟩ := List.any_eq_true.mp hany
      rw [stripPrefix_eq_some_iff] at hstrip
      rw [beq_iff_eq] at hkey
      exact ⟨key, hmem, by rw [hvalue, hstrip, hkey]⟩
  · rintro ⟨key, hmem, hvalue⟩
    have hany : apiKeys.any (key == ·) = true :=
      List.any_eq_true.mpr ⟨key, hmem, beq_self_eq_true key⟩
    rw [hvalue, Option.bind_some, stripPrefix_eq_some_iff.mpr rfl]
    simp only [hany, if_true]

end Specs

end RmqttThings.Access
