import RmqttThings.Access.Guards
import RmqttThings.Effects.Pool

namespace RmqttThings.Login

open Access (HeaderMap Url AuthError headerValue resolveAppOriginAndReturnTo)
open Api (ApiError)
open Effects Encoding

structure HeraldConfig where
  baseUrl : String
  realmId : String
  clientId : String

structure TokenResponse where
  accessToken : String
  refreshToken : String
  expiresIn : Int64
  refreshExpiresIn : Int64
  deriving DecidableEq

structure OAuthCookie where
  state : String
  codeVerifier : String
  returnTo : String
  redirectUri : String
  deriving DecidableEq

-- How serde_json writes and reads the cookie.
structure OAuthCodec where
  toString : OAuthCookie → String
  fromSlice : List UInt8 → Option OAuthCookie
  toString_ne : ∀ cookie, toString cookie ≠ ""
  fromSlice_toString : ∀ cookie, fromSlice (utf8Bytes (toString cookie)) = some cookie

-- A request to Herald, with its URL and what the body or the header holds.
inductive HeraldCall where
  | token (url code redirectUri clientId codeVerifier : String)
  | refresh (url refreshToken : String)
  | logout (url accessToken : String)
  deriving DecidableEq

inductive HeraldAnswer where
  | noResponse
  -- The status is not a success.
  | refused
  -- The body is not a `TokenResponse`.
  | unreadable
  | tokens (response : TokenResponse)
  deriving DecidableEq

-- The configuration, and what the server takes from libraries.
structure Site where
  herald : Option HeraldConfig
  -- `Url::parse` and `Url`'s `Display`.
  parse : String → Option Url
  urlText : Url → String
  sha256 : List UInt8 → List UInt8
  codec : OAuthCodec

structure Response where
  status : Nat
  location : Option String
  setCookies : List String
  -- The field of `RefreshResponse`.
  expiresIn : Option Int64
  deriving DecidableEq

-- What a handler asks of the world, and what passes between it and the browser.
inductive Op where
  | send
  | randomToken (length : Nat)
  | herald (call : HeraldCall)
  | receive (setCookies : List String)
  | expire (name : String)

@[reducible] def Op.Ans : Op → Type
  | .send => HeaderMap
  | .randomToken _ => String
  | .herald _ => HeraldAnswer
  | .receive _ | .expire _ => Unit

abbrev Code (α : Type) := Prog Op.Ans α

inductive Request where
  | oauthStart (headers : HeaderMap) (redirect : Option String)
  | oauthCallback (headers : HeaderMap) (code state : String)
  | refreshToken (headers : HeaderMap)
  | logout (headers : HeaderMap)
  -- The browser drops a cookie whose time is up.
  | expire (name : String)

def trimSlashes (text : String) : String := String.ofList (text.toList.rdropWhile (· == '/'))

def base64Url (bytes : List UInt8) : String := String.ofList (encodeNoPad .urlSafe bytes)

def pkceChallenge (site : Site) (codeVerifier : String) : String :=
  base64Url (site.sha256 (utf8Bytes codeVerifier))

def encodeOauthCookie (site : Site) (cookie : OAuthCookie) : String :=
  base64Url (utf8Bytes (site.codec.toString cookie))

def decodeOauthCookie (site : Site) (value : String) : Option OAuthCookie :=
  (decodeNoPad .urlSafe value.toList).bind site.codec.fromSlice

def authorizeBase (herald : HeraldConfig) : String :=
  trimSlashes herald.baseUrl ++ "/api/oauth/" ++ herald.realmId ++ "/authorize"

def tokenUrl (herald : HeraldConfig) : String :=
  trimSlashes herald.baseUrl ++ "/api/oauth/" ++ herald.realmId ++ "/token"

def refreshUrl (herald : HeraldConfig) : String :=
  trimSlashes herald.baseUrl ++ "/api/auth/browser-token/refresh"

def logoutUrl (herald : HeraldConfig) : String := trimSlashes herald.baseUrl ++ "/api/auth/logout"

def authorizePairs (clientId redirectUri state codeChallenge : String) : List (String × String) :=
  [("client_id", clientId), ("redirect_uri", redirectUri), ("state", state),
    ("response_type", "code"), ("code_challenge", codeChallenge), ("code_challenge_method", "S256")]

-- `query_pairs_mut().append_pair`: behind the query that is there.
def appendPairs (url : Url) (pairs : List (String × String)) : Url :=
  let text := String.ofList
      (serialize (pairs.map fun (name, value) => (utf8Bytes name, utf8Bytes value)))
  let query := url.query.getD ""
  { url with query := some (if query = "" then text else query ++ "&" ++ text) }

def buildAuthorizeUrl (site : Site) (herald : HeraldConfig)
    (redirectUri state codeChallenge : String) :
    Except AuthError String :=
  match site.parse (authorizeBase herald) with
  | none => .error (.api (.internal "invalid Herald OAuth authorize URL"))
  | some url =>
      .ok (site.urlText (appendPairs url (authorizePairs herald.clientId redirectUri state
        codeChallenge)))

def notConfigured : AuthError := .api (.notFound "Herald auth is not configured")

def HeraldAnswer.token : HeraldAnswer → Except AuthError TokenResponse
  | .noResponse | .unreadable => .error (.api (.serviceUnavailable "auth service unavailable"))
  | .refused => .error .unauthorized
  | .tokens response => .ok response

def header (text message : String) : Except AuthError String :=
  match headerValue text with
  | some value => .ok value
  | none => .error (.api (.internal message))

def callbackPath : String := "/api/auth/oauth/callback"

def oauthStart (site : Site) (headers : HeaderMap) (redirect : Option String) :
    Code (Except AuthError Response) :=
  match site.herald with
  | none => .ret (.error notConfigured)
  | some herald =>
      match resolveAppOriginAndReturnTo site.parse headers redirect with
      | .error error => .ret (.error (.api error))
      | .ok (appOrigin, returnTo) =>
          .call (.randomToken 32) fun state =>
          .call (.randomToken 64) fun codeVerifier =>
          let redirectUri := appOrigin ++ callbackPath
          .ret <| (buildAuthorizeUrl site herald redirectUri state
            (pkceChallenge site codeVerifier)).map fun url =>
            ⟨302, some url,
              [buildCookie "RMQTT_OAUTH" (encodeOauthCookie site ⟨state, codeVerifier, returnTo,
                redirectUri⟩) 300], none⟩

-- The two cookies of a login, in the order of the source.
def tokenCookies (token : TokenResponse) : Except AuthError (List String) := do
  let access ← header (buildCookie "X-Auth" token.accessToken token.expiresIn) "invalid auth cookie"
  let refresh ← header (buildCookie "X-Auth-Refresh" token.refreshToken token.refreshExpiresIn)
      "invalid refresh cookie"
  return [access, refresh]

def callbackResponse (cookie : OAuthCookie) (token : TokenResponse) :
    Except AuthError Response := do
  let location ← header cookie.returnTo "invalid OAuth return path"
  let cookies ← tokenCookies token
  let cleared ← header (clearCookie "RMQTT_OAUTH") "invalid OAuth cookie"
  return ⟨302, some location, cookies ++ [cleared], none⟩

def refreshResponse (token : TokenResponse) : Except AuthError Response := do
  let cookies ← tokenCookies token
  return ⟨200, none, cookies, some token.expiresIn⟩

def logoutResponse : Except AuthError Response := do
  let access ← header (clearCookie "X-Auth") "invalid auth cookie"
  let refresh ← header (clearCookie "X-Auth-Refresh") "invalid refresh cookie"
  return ⟨200, none, [access, refresh], none⟩

def oauthCallback (site : Site) (headers : HeaderMap) (code state : String) :
    Code (Except AuthError Response) :=
  match site.herald with
  | none => .ret (.error notConfigured)
  | some herald =>
      match (getCookie headers "RMQTT_OAUTH").bind (decodeOauthCookie site) with
      | none => .ret (.error .unauthorized)
      | some cookie =>
          if cookie.state ≠ state then .ret (.error .unauthorized)
          else
            .call (.herald (.token (tokenUrl herald) code cookie.redirectUri herald.clientId
              cookie.codeVerifier)) fun answer => .ret (answer.token.bind (callbackResponse cookie))

def refreshToken (site : Site) (headers : HeaderMap) : Code (Except AuthError Response) :=
  match site.herald with
  | none => .ret (.error notConfigured)
  | some herald =>
      match getCookie headers "X-Auth-Refresh" with
      | none => .ret (.error .unauthorized)
      | some token =>
          .call (.herald (.refresh (refreshUrl herald) token)) fun answer =>
            .ret (answer.token.bind refreshResponse)

-- Whatever Herald answers, the cookies are dropped.
def logout (site : Site) (headers : HeaderMap) : Code (Except AuthError Response) :=
  match site.herald with
  | none => .ret (.error notConfigured)
  | some herald =>
      match getCookie headers "X-Auth" with
      | none => .ret logoutResponse
      | some token =>
          .call (.herald (.logout (logoutUrl herald) token)) fun _ => .ret logoutResponse

def setCookies : Except AuthError Response → List String
  | .ok response => response.setCookies
  | .error _ => []

-- The cookies go out with the request and come in with the response. The other headers are
-- whatever the browser, the page and the proxies make them.
def exchange (headers : HeaderMap) (handler : HeaderMap → Code (Except AuthError Response)) :
    Code (Except AuthError Response) :=
  .call .send fun cookies =>
    (handler (headers.filter (·.1 ≠ "cookie") ++ cookies)).bind fun result =>
      .call (.receive (setCookies result)) fun _ => .ret result

def code (site : Site) : Request → Code (Except AuthError Response)
  | .oauthStart headers redirect => exchange headers fun headers => oauthStart site headers redirect
  | .oauthCallback headers code state =>
      exchange headers fun headers => oauthCallback site headers code state
  | .refreshToken headers => exchange headers (refreshToken site)
  | .logout headers => exchange headers (logout site)
  | .expire name => .call (.expire name) fun _ => .ret (.ok ⟨200, none, [], none⟩)

-- One browser, the random numbers of the server, and Herald.
structure World where
  jar : Jar
  draws : Nat
  random : Nat → Nat → String
  -- What Herald answers after the calls that it has had, newest first.
  herald : List HeraldCall → HeraldCall → HeraldAnswer
  calls : List HeraldCall

def sem : (op : Op) → World → op.Ans × World
  | .send, w => (w.jar.requestHeaders, w)
  | .randomToken length, w => (w.random w.draws length, { w with draws := w.draws + 1 })
  | .herald call, w => (w.herald w.calls call, { w with calls := call :: w.calls })
  | .receive setCookies, w => ((), { w with jar := setCookies.foldl Jar.store w.jar })
  | .expire name, w => ((), { w with jar := w.jar.remove name })

end RmqttThings.Login
