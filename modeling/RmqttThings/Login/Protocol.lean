import RmqttThings.Login.Handlers

namespace RmqttThings.Login

open Access (HeaderMap Url AuthError headerValue resolveAppOriginAndReturnTo)
open Effects Effects.Prog Effects.Pool Encoding

abbrev Past := List (Event Op.Ans)

-- The headers that a handler sees.
def seen (headers cookies : HeaderMap) : HeaderMap := headers.filter (·.1 ≠ "cookie") ++ cookies

-- The cookie of a login that the request and its random tokens have made.
def Began (site : Site) (headers : HeaderMap) (redirect : Option String) (past : Past)
    (cookie : OAuthCookie) : Prop :=
  ∃ cookies appOrigin, past = [⟨.randomToken 64, cookie.codeVerifier⟩,
    ⟨.randomToken 32, cookie.state⟩, ⟨.send, cookies⟩] ∧
    resolveAppOriginAndReturnTo site.parse (seen headers cookies) redirect = .ok (appOrigin,
      cookie.returnTo) ∧
    cookie.redirectUri = appOrigin ++ callbackPath

def sessionCookies (token : TokenResponse) : List String :=
  [buildCookie "X-Auth" token.accessToken token.expiresIn,
    buildCookie "X-Auth-Refresh" token.refreshToken token.refreshExpiresIn]

-- A call that Herald answers with tokens.
def HeraldCall.Issues : HeraldCall → Prop
  | .token .. | .refresh .. => True
  | .logout .. => False

-- What a response sets, by the request and what has happened to it.
inductive Receives (site : Site) : Request → Past → List String → Prop
  | nothing (request : Request) (past : Past) : Receives site request past []
  | began {headers : HeaderMap} {redirect : Option String} {past : Past} {cookie : OAuthCookie}
      (h : Began site headers redirect past cookie) :
      Receives site (.oauthStart headers redirect) past
        [buildCookie "RMQTT_OAUTH" (encodeOauthCookie site cookie) 300]
  | finished {headers : HeaderMap} {code state : String} {call : HeraldCall} {token : TokenResponse}
      {past : Past} (h : call.Issues) :
      Receives site (.oauthCallback headers code state) (⟨.herald call, .tokens token⟩ :: past)
        (sessionCookies token ++ [clearCookie "RMQTT_OAUTH"])
  | refreshed {headers : HeaderMap} {call : HeraldCall} {token : TokenResponse} {past : Past}
      (h : call.Issues) :
      Receives site (.refreshToken headers) (⟨.herald call, .tokens token⟩ :: past)
        (sessionCookies token)
  | loggedOut {headers : HeaderMap} {past : Past} :
      Receives site (.logout headers) past [clearCookie "X-Auth", clearCookie "X-Auth-Refresh"]

-- What a request may do after its own past.
def Allowed (site : Site) (request : Request) (past : Past) : Op → Prop
  | .send => past = []
  | .randomToken _ => ∃ headers redirect, request = .oauthStart headers redirect
  | .herald (.token url code redirectUri clientId codeVerifier) =>
      ∃ headers herald cookies value cookie, past = [⟨.send, cookies⟩] ∧ site.herald = some herald ∧
        url = tokenUrl herald ∧ clientId = herald.clientId ∧
        getCookie (seen headers cookies) "RMQTT_OAUTH" = some value ∧ decodeOauthCookie site value =
          some cookie ∧
        request = .oauthCallback headers code cookie.state ∧ redirectUri = cookie.redirectUri ∧
        codeVerifier = cookie.codeVerifier
  | .herald (.refresh _ token) =>
      ∃ headers cookies, past = [⟨.send, cookies⟩] ∧ request = .refreshToken headers ∧
      getCookie (seen headers cookies) "X-Auth-Refresh" = some token
  | .herald (.logout _ token) =>
      ∃ headers cookies, past = [⟨.send, cookies⟩] ∧ request = .logout headers ∧
      getCookie (seen headers cookies) "X-Auth" = some token
  | .receive setCookies => Receives site request past setCookies
  | .expire name => request = .expire name

section Local

variable {site : Site}

theorem bind_eq_ok {α β : Type} {result : Except AuthError α} {next : α → Except AuthError β}
    {value : β} (h : result.bind next = .ok value) : ∃ a, result = .ok a ∧ next a = .ok value := by
  cases result with
  | error error => cases h
  | ok a => exact ⟨a, rfl, h⟩

theorem header_eq_ok {text message value : String} (h : header text message = .ok value) :
    value = text := by
  unfold header headerValue at h
  split at h
  · next found hfound =>
      split_ifs at hfound
      cases hfound
      cases h
      rfl
  · cases h

theorem tokenCookies_eq_ok {token : TokenResponse} {cookies : List String}
    (h : tokenCookies token = .ok cookies) :
    cookies = sessionCookies token := by
  obtain ⟨access, haccess, h⟩ := bind_eq_ok h
  obtain ⟨refresh, hrefresh, h⟩ := bind_eq_ok h
  cases h
  rw [header_eq_ok haccess, header_eq_ok hrefresh, sessionCookies]

theorem setCookies_callbackResponse {cookie : OAuthCookie} {token : TokenResponse} :
    setCookies (callbackResponse cookie token) = [] ∨
      setCookies (callbackResponse cookie token) = sessionCookies token ++
        [clearCookie "RMQTT_OAUTH"] := by
  cases h : callbackResponse cookie token with
  | error error => exact .inl rfl
  | ok response =>
      right
      obtain ⟨location, -, h⟩ := bind_eq_ok h
      obtain ⟨cookies, hcookies, h⟩ := bind_eq_ok h
      obtain ⟨cleared, hcleared, h⟩ := bind_eq_ok h
      cases h
      rw [setCookies, tokenCookies_eq_ok hcookies, header_eq_ok hcleared]

theorem setCookies_refreshResponse {token : TokenResponse} :
    setCookies (refreshResponse token) = [] ∨ setCookies (refreshResponse token) =
      sessionCookies token := by
  cases h : refreshResponse token with
  | error error => exact .inl rfl
  | ok response =>
      right
      obtain ⟨cookies, hcookies, h⟩ := bind_eq_ok h
      cases h
      rw [setCookies, tokenCookies_eq_ok hcookies]

theorem logoutResponse_eq : logoutResponse =
    .ok ⟨200, none, [clearCookie "X-Auth", clearCookie "X-Auth-Refresh"], none⟩ := by decide +kernel

-- Tokens come from the calls that issue them.
theorem setCookies_token {answer : HeraldAnswer}
    {response : TokenResponse → Except AuthError Response} :
    setCookies (answer.token.bind response) = [] ∨
      ∃ token, answer = .tokens token ∧ setCookies (answer.token.bind response) =
        setCookies (response token) := by
  cases answer with
  | noResponse => exact .inl rfl
  | refused => exact .inl rfl
  | unreadable => exact .inl rfl
  | tokens token => exact .inr ⟨token, rfl, rfl⟩

theorem exchange_spec {request : Request} {headers : HeaderMap}
    {handler : HeaderMap → Code (Except AuthError Response)}
    (h : ∀ cookies, Spec (Allowed site request) (fun result past => Receives site request past
      (setCookies result)) (handler (seen headers cookies)) [⟨.send, cookies⟩]) :
    Spec (Allowed site request) (fun _ _ => True) (exchange headers handler) [] := by
  refine ⟨rfl, fun cookies => ?_⟩
  apply Spec.seq (h cookies)
  intro result past hreceives
  exact ⟨hreceives, fun _ => trivial⟩

theorem oauthStart_spec (headers : HeaderMap) (redirect : Option String) (cookies : HeaderMap) :
    Spec (Allowed site (.oauthStart headers redirect))
      (fun result past => Receives site (.oauthStart headers redirect) past (setCookies result))
      (oauthStart site (seen headers cookies) redirect) [⟨.send, cookies⟩] := by
  unfold oauthStart
  split
  · exact .nothing _ _
  · next herald _ =>
    split
    · exact .nothing _ _
    · next appOrigin returnTo hresolve =>
      refine ⟨⟨headers, redirect, rfl⟩, fun state => ⟨⟨headers, redirect, rfl⟩,
        fun codeVerifier => ?_⟩⟩
      rw [spec_ret]
      cases buildAuthorizeUrl site herald (appOrigin ++ callbackPath) state
        (pkceChallenge site codeVerifier) with
      | error error => exact .nothing _ _
      | ok url =>
          have hbegan : Began site headers redirect
              [⟨.randomToken 64, codeVerifier⟩, ⟨.randomToken 32, state⟩, ⟨.send, cookies⟩]
              ⟨state, codeVerifier, returnTo, appOrigin ++ callbackPath⟩ :=
                ⟨cookies, appOrigin, rfl, hresolve, rfl⟩
          exact .began hbegan

theorem oauthCallback_spec (headers : HeaderMap) (code state : String) (cookies : HeaderMap) :
    Spec (Allowed site (.oauthCallback headers code state))
      (fun result past => Receives site (.oauthCallback headers code state) past
        (setCookies result))
      (oauthCallback site (seen headers cookies) code state) [⟨.send, cookies⟩] := by
  unfold oauthCallback
  split
  · exact .nothing _ _
  · next herald hherald =>
    split
    · exact .nothing _ _
    · next cookie hcookie =>
      obtain ⟨value, hvalue, hdecode⟩ := Option.bind_eq_some_iff.mp hcookie
      by_cases hstate : cookie.state = state
      · subst hstate
        rw [if_neg (not_not.mpr rfl)]
        refine ⟨⟨headers, herald, cookies, value, cookie, rfl, hherald, rfl, rfl, hvalue, hdecode,
          rfl, rfl, rfl⟩, fun answer => ?_⟩
        rw [spec_ret]
        rcases @setCookies_token answer (callbackResponse cookie) with hnone | ⟨token, rfl, htoken⟩
        · rw [hnone]
          exact .nothing _ _
        · rw [htoken]
          rcases @setCookies_callbackResponse cookie token with hnone | hsome
          · rw [hnone]
            exact .nothing _ _
          · rw [hsome]
            exact .finished trivial
      · rw [if_pos hstate]
        exact .nothing _ _

theorem refreshToken_spec (headers cookies : HeaderMap) :
    Spec (Allowed site (.refreshToken headers))
      (fun result past => Receives site (.refreshToken headers) past (setCookies result))
      (refreshToken site (seen headers cookies)) [⟨.send, cookies⟩] := by
  unfold refreshToken
  split
  · exact .nothing _ _
  · next herald _ =>
    split
    · exact .nothing _ _
    · next value hvalue =>
      refine ⟨⟨headers, cookies, rfl, rfl, hvalue⟩, fun answer => ?_⟩
      rw [spec_ret]
      rcases @setCookies_token answer refreshResponse with hnone | ⟨token, rfl, htoken⟩
      · rw [hnone]
        exact .nothing _ _
      · rw [htoken]
        rcases @setCookies_refreshResponse token with hnone | hsome
        · rw [hnone]
          exact .nothing _ _
        · rw [hsome]
          exact .refreshed trivial

theorem logout_spec (headers cookies : HeaderMap) :
    Spec (Allowed site (.logout headers))
      (fun result past => Receives site (.logout headers) past (setCookies result))
      (logout site (seen headers cookies)) [⟨.send, cookies⟩] := by
  unfold logout
  split
  · exact .nothing _ _
  · split
    · rw [spec_ret, logoutResponse_eq]
      exact .loggedOut
    · next value hvalue =>
      refine ⟨⟨headers, cookies, rfl, rfl, hvalue⟩, fun _ => ?_⟩
      rw [spec_ret, logoutResponse_eq]
      exact .loggedOut

-- What every request does, whatever it is answered.
theorem code_spec (request : Request) :
    Spec (Allowed site request) (fun _ _ => True) (code site request) [] := by
  cases request with
  | oauthStart headers redirect =>
      unfold code
      apply exchange_spec
      exact oauthStart_spec headers redirect
  | oauthCallback headers grant state =>
      unfold code
      apply exchange_spec
      exact oauthCallback_spec headers grant state
  | refreshToken headers =>
      unfold code
      apply exchange_spec
      exact refreshToken_spec headers
  | logout headers =>
      unfold code
      apply exchange_spec
      exact logout_spec headers
  | expire name => exact ⟨rfl, fun _ => trivial⟩

end Local

end RmqttThings.Login
