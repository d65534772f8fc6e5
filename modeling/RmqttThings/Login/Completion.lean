import RmqttThings.Login.CookieJson
import RmqttThings.Login.Sessions

namespace RmqttThings.Login

open Access (HeaderMap Url AuthError headerValue location_eq resolveAppOriginAndReturnTo
  safeReturnPath safeReturnPath_cases isControl map_ok)
open Effects Effects.Prog Encoding

section Headers

-- Text that may be the value of a header.
def Printable (text : String) : Prop := ∀ char ∈ text.toList, 32 ≤ char.toNat ∧ char.toNat ≠ 127

instance (text : String) : Decidable (Printable text) :=
  decidable_of_iff (text.toList.all fun char => decide (32 ≤ char.toNat ∧ char.toNat ≠ 127))
    (by simp [Printable])

theorem printable_append {first second : String} (h : Printable first) (h' : Printable second) :
    Printable (first ++ second) := by
  intro char hmem
  rcases List.mem_append.mp (String.toList_append .. ▸ hmem) with hfirst | hsecond
  · exact h char hfirst
  · exact h' char hsecond

theorem printable_cookieText {text : String} (h : CookieText text) : Printable text := by
  intro char hmem
  have hvisible := (h char hmem).1
  simp only [isVisible, Bool.and_eq_true, decide_eq_true_eq] at hvisible
  omega

theorem header_ok {text message : String} (h : Printable text) :
    header text message = .ok text := by
  have hall : (text.toList.all fun char => (32 ≤ char.toNat ∧ char.toNat ≠ 127) ∨ char = '\t') =
      true := by
    rw [List.all_eq_true]
    intro char hmem
    rw [decide_eq_true_eq]
    exact .inl (h char hmem)
  rw [header, headerValue, if_pos hall]

theorem printable_buildCookie {name value : String} (hname : CookieName name)
    (hvalue : CookieText value) (age : Int64) :
    Printable (buildCookie name value age) := by
  refine printable_append ?_ (by decide)
  refine printable_append ?_ (printable_cookieText (cookieText_int _))
  refine printable_append ?_ (by decide)
  refine printable_append ?_ (printable_cookieText hvalue)
  exact printable_append (printable_cookieText hname.1) (by decide)

theorem tokenCookies_ok {token : TokenResponse} (haccess : CookieText token.accessToken)
    (hrefresh : CookieText token.refreshToken) :
    tokenCookies token = .ok (sessionCookies token) := by
  rw [tokenCookies, header_ok (printable_buildCookie cookieName_auth haccess _),
    header_ok (printable_buildCookie cookieName_refresh hrefresh _)]
  rfl

-- A return path is free of control characters, so it can be sent back in a header.
theorem printable_safeReturnPath (path : String) : Printable (safeReturnPath path) := by
  rcases safeReturnPath_cases path with hroot | ⟨hpath, -, -, hcontrol⟩
  · rw [hroot]
    decide
  · rw [hpath]
    intro char hmem
    have hfree := hcontrol char hmem
    simp only [isControl, Bool.or_eq_false_iff, Bool.and_eq_false_iff,
      decide_eq_false_iff_not] at hfree
    omega

theorem printable_returnTo {parse : String → Option Url} {headers : HeaderMap}
    {redirect : Option String}
    {appOrigin returnTo : String} (h : resolveAppOriginAndReturnTo parse headers redirect =
      .ok (appOrigin, returnTo)) :
    Printable returnTo := by
  have hroot : Printable "/" := by decide
  unfold resolveAppOriginAndReturnTo at h
  split at h
  · obtain ⟨origin, -, heq⟩ := map_ok h
    cases heq
    exact hroot
  · split at h
    · obtain ⟨origin, -, heq⟩ := map_ok h
      cases heq
      exact printable_safeReturnPath _
    · split_ifs at h
      · obtain ⟨origin, -, heq⟩ := map_ok h
        cases heq
        exact printable_safeReturnPath _
      · obtain ⟨origin, -, heq⟩ := map_ok h
        cases heq
        exact hroot

end Headers

section Completion

-- The query of the authorize URL is read as the pairs that were appended to it.
theorem parse_appendPairs (url : Url) (pairs : List (String × String)) :
    ((appendPairs url pairs).query.map fun query => parse query.toList) =
      some (parse (url.query.getD "").toList ++ pairs.map fun (name, value) => (utf8Bytes name,
        utf8Bytes value)) := by
  simp only [appendPairs, Option.map_some, Option.some.injEq]
  by_cases hempty : url.query.getD "" = ""
  · rw [if_pos hempty, hempty, String.toList_ofList, parse_serialize]
    rfl
  · have happend : (url.query.getD "" ++ "&" ++ String.ofList
        (serialize (pairs.map fun (name, value) => (utf8Bytes name, utf8Bytes value)))).toList =
        (url.query.getD "").toList ++ '&' ::
          serialize (pairs.map fun (name, value) => (utf8Bytes name, utf8Bytes value)) := by
      simp [String.toList_append]
    rw [if_neg hempty, happend, parse_append, parse_serialize]

theorem encodeOauthCookie_ne (site : Site) (cookie : OAuthCookie) :
    encodeOauthCookie site cookie ≠ "" := by
  intro hempty
  have hback := decodeNoPad_encodeNoPad .urlSafe (utf8Bytes (site.codec.toString cookie))
  have hnil : encodeNoPad .urlSafe (utf8Bytes (site.codec.toString cookie)) = [] := by
    have htext := congrArg String.toList hempty
    rwa [encodeOauthCookie, base64Url, String.toList_ofList] at htext
  rw [hnil] at hback
  have hbytes : utf8Bytes (site.codec.toString cookie) = [] := (Option.some.inj hback).symm
  apply site.codec.toString_ne cookie
  rw [utf8Bytes_eq_flatMap, List.flatMap_eq_nil_iff] at hbytes
  rw [← String.toList_inj]
  cases htext : (site.codec.toString cookie).toList with
  | nil => rfl
  | cons char rest =>
      have hchar := hbytes char (by simp [htext])
      exact absurd hchar (by simp)

-- The cookies of the response are what the request changes of the jar.
theorem run_exchange (headers : HeaderMap) (handler : HeaderMap → Code (Except AuthError Response))
    (w : World) :
    (exchange headers handler).run sem w =
      (((handler (seen headers w.jar.requestHeaders)).run sem w).1,
        { ((handler (seen headers w.jar.requestHeaders)).run sem w).2 with
          jar := storeAll ((handler (seen headers w.jar.requestHeaders)).run sem w).2.jar
            (setCookies ((handler (seen headers w.jar.requestHeaders)).run sem w).1) }) := by
  rw [exchange, run_call, run_bind, run_call, run_ret]
  rfl

-- The cookie of the login that begins next.
def World.nextLogin (w : World) (appOrigin returnTo : String) : OAuthCookie :=
  ⟨w.random w.draws 32, w.random (w.draws + 1) 64, returnTo, appOrigin ++ callbackPath⟩

def authorizeUrl (site : Site) (herald : HeraldConfig) (url : Url) (cookie : OAuthCookie) : Url :=
  appendPairs url (authorizePairs herald.clientId cookie.redirectUri cookie.state
    (pkceChallenge site cookie.codeVerifier))

variable {site : Site} {herald : HeraldConfig} {w : World} {headers : HeaderMap}

theorem set_buildCookie {jar : Jar} {name value : String} {age : Int64} (hname : CookieName name)
    (hvalue : CookieText value) (hage : 0 < age.toInt) :
    jar.store (buildCookie name value age) = jar.set name value := by
  rw [store_buildCookie hname hvalue, if_neg (by omega)]

theorem run_oauthStart {url : Url} {redirect : Option String} {appOrigin returnTo : String}
    (hsite : site.herald = some herald) (hurl : site.parse (authorizeBase herald) = some url)
    (hresolve : resolveAppOriginAndReturnTo site.parse (seen headers w.jar.requestHeaders)
      redirect =
      .ok (appOrigin, returnTo)) :
    (code site (.oauthStart headers redirect)).run sem w =
      (.ok ⟨302, some (site.urlText
        (authorizeUrl site herald url (w.nextLogin appOrigin returnTo))),
        [buildCookie "RMQTT_OAUTH" (encodeOauthCookie site (w.nextLogin appOrigin returnTo)) 300],
          none⟩,
        { w with
          draws := w.draws + 2
          jar := w.jar.set "RMQTT_OAUTH"
            (encodeOauthCookie site (w.nextLogin appOrigin returnTo)) }) := by
  have hhandler : (oauthStart site (seen headers w.jar.requestHeaders) redirect).run sem w =
      (.ok ⟨302, some (site.urlText
        (authorizeUrl site herald url (w.nextLogin appOrigin returnTo))),
        [buildCookie "RMQTT_OAUTH" (encodeOauthCookie site (w.nextLogin appOrigin returnTo)) 300],
          none⟩,
        { w with draws := w.draws + 2 }) := by
    simp only [oauthStart, hsite, hresolve, run_call, run_ret, buildAuthorizeUrl, hurl]
    rfl
  have htext : CookieText (encodeOauthCookie site (w.nextLogin appOrigin returnTo)) :=
    cookieText_base64Url _
  have hstored : storeAll w.jar
      [buildCookie "RMQTT_OAUTH" (encodeOauthCookie site (w.nextLogin appOrigin returnTo)) 300] =
      w.jar.set "RMQTT_OAUTH" (encodeOauthCookie site (w.nextLogin appOrigin returnTo)) := by
    rw [storeAll_one, set_buildCookie cookieName_oauth htext (by decide)]
  rw [code, run_exchange, hhandler]
  simp only [setCookies, hstored]

-- The callback of the login whose cookie the browser holds.
theorem oauthCallback_eq {cookie : OAuthCookie} {grant : String} (hsite : site.herald = some herald)
    (hjar : w.jar.Plain)
    (hcookie : w.jar.value "RMQTT_OAUTH" = some (encodeOauthCookie site cookie)) :
    oauthCallback site (seen headers w.jar.requestHeaders) grant cookie.state =
      .call (.herald (.token (tokenUrl herald) grant cookie.redirectUri herald.clientId
        cookie.codeVerifier)) fun answer => .ret (answer.token.bind (callbackResponse cookie)) := by
  rw [oauthCallback, hsite]
  simp only [getCookie_seen hjar, hcookie, Option.bind_some, decode_encode, ne_eq,
    not_true_eq_false, if_false]

theorem refreshToken_eq {presented : String} (hsite : site.herald = some herald)
    (hjar : w.jar.Plain) (hcookie : w.jar.value "X-Auth-Refresh" = some presented) :
    refreshToken site (seen headers w.jar.requestHeaders) =
      .call (.herald (.refresh (refreshUrl herald) presented)) fun answer =>
        .ret (answer.token.bind refreshResponse) := by
  rw [refreshToken, hsite]
  simp only [getCookie_seen hjar, hcookie]

-- What a handler that calls Herald once does.
theorem trace_exchange {handler : HeaderMap → Code (Except AuthError Response)} {made : HeraldCall}
    {next : HeraldAnswer → Except AuthError Response}
    (h : handler (seen headers w.jar.requestHeaders) = .call (.herald made) fun answer =>
      .ret (next answer)) :
    (exchange headers handler).trace sem w =
      [⟨.receive (setCookies (next (w.herald w.calls made))), ()⟩,
        ⟨.herald made, w.herald w.calls made⟩, ⟨.send, w.jar.requestHeaders⟩] := by
  have hbody : (handler (seen headers w.jar.requestHeaders)).trace sem w =
      [⟨.herald made, w.herald w.calls made⟩] := by
    rw [h]
    rfl
  have hresult : (handler (seen headers w.jar.requestHeaders)).run sem w =
      (next (w.herald w.calls made), { w with calls := made :: w.calls }) := by
    rw [h]
    rfl
  have hsem : sem .send w = (w.jar.requestHeaders, w) := rfl
  rw [exchange, trace_call, hsem]
  simp only [trace_bind]
  have hseen : headers.filter (·.1 ≠ "cookie") ++ w.jar.requestHeaders =
      seen headers w.jar.requestHeaders := rfl
  rw [hseen, hbody, hresult]
  rfl

theorem trace_oauthCallback {cookie : OAuthCookie} {grant : String}
    (hsite : site.herald = some herald) (hjar : w.jar.Plain)
    (hcookie : w.jar.value "RMQTT_OAUTH" = some (encodeOauthCookie site cookie)) :
    ∃ received answer cookies, (code site (.oauthCallback headers grant cookie.state)).trace sem w =
      [⟨.receive received, ()⟩,
        ⟨.herald (.token (tokenUrl herald) grant cookie.redirectUri herald.clientId
        cookie.codeVerifier), answer⟩, ⟨.send, cookies⟩] := by
  rw [code]
  exact ⟨_, _, _, trace_exchange (oauthCallback_eq hsite hjar hcookie)⟩

theorem trace_refreshToken {presented : String} (hsite : site.herald = some herald)
    (hjar : w.jar.Plain) (hcookie : w.jar.value "X-Auth-Refresh" = some presented) :
    ∃ received answer cookies, (code site (.refreshToken headers)).trace sem w =
      [⟨.receive received, ()⟩, ⟨.herald (.refresh (refreshUrl herald) presented), answer⟩,
        ⟨.send, cookies⟩] := by
  rw [code]
  exact ⟨_, _, _, trace_exchange (refreshToken_eq hsite hjar hcookie)⟩

theorem run_oauthCallback {cookie : OAuthCookie} {grant : String} {token : TokenResponse}
    (hsite : site.herald = some herald) (hjar : w.jar.Plain)
    (hcookie : w.jar.value "RMQTT_OAUTH" = some (encodeOauthCookie site cookie))
    (hreturn : Printable cookie.returnTo) (haccess : CookieText token.accessToken)
    (hrefresh : CookieText token.refreshToken)
    (hanswer : w.herald w.calls (.token (tokenUrl herald) grant cookie.redirectUri herald.clientId
      cookie.codeVerifier) =
      .tokens token) :
    (code site (.oauthCallback headers grant cookie.state)).run sem w =
      (.ok ⟨302, some cookie.returnTo, sessionCookies token ++ [clearCookie "RMQTT_OAUTH"], none⟩,
        { w with
          jar := storeAll w.jar (sessionCookies token ++ [clearCookie "RMQTT_OAUTH"])
          calls := .token (tokenUrl herald) grant cookie.redirectUri herald.clientId
            cookie.codeVerifier :: w.calls }) := by
  have hresponse : callbackResponse cookie token =
      .ok ⟨302, some cookie.returnTo, sessionCookies token ++ [clearCookie "RMQTT_OAUTH"],
        none⟩ := by
    have hclear : Printable (clearCookie "RMQTT_OAUTH") := by decide
    rw [callbackResponse, header_ok hreturn, tokenCookies_ok haccess hrefresh, header_ok hclear]
    rfl
  have hhandler : (oauthCallback site (seen headers w.jar.requestHeaders) grant cookie.state).run
      sem w =
      (.ok ⟨302, some cookie.returnTo, sessionCookies token ++ [clearCookie "RMQTT_OAUTH"], none⟩,
        { w with
          calls := .token (tokenUrl herald) grant cookie.redirectUri herald.clientId
            cookie.codeVerifier ::
            w.calls }) := by
    rw [oauthCallback_eq hsite hjar hcookie, run_call, run_ret]
    show ((w.herald w.calls _).token.bind (callbackResponse cookie), _) = _
    rw [hanswer]
    show (callbackResponse cookie token, _) = _
    rw [hresponse]
    rfl
  rw [code, run_exchange, hhandler]
  rfl

theorem jar_oauthCallback {cookie : OAuthCookie} {grant : String} {token : TokenResponse}
    (hsite : site.herald = some herald) (hjar : w.jar.Plain)
    (hcookie : w.jar.value "RMQTT_OAUTH" = some (encodeOauthCookie site cookie))
    (hreturn : Printable cookie.returnTo) (haccess : CookieText token.accessToken)
    (hrefresh : CookieText token.refreshToken)
    (hanswer : w.herald w.calls (.token (tokenUrl herald) grant cookie.redirectUri herald.clientId
      cookie.codeVerifier) =
      .tokens token) :
    ((code site (.oauthCallback headers grant cookie.state)).final sem w).jar =
      (storeAll w.jar (sessionCookies token)).store (clearCookie "RMQTT_OAUTH") := by
  rw [final, run_oauthCallback hsite hjar hcookie hreturn haccess hrefresh hanswer]
  show storeAll w.jar (sessionCookies token ++ [clearCookie "RMQTT_OAUTH"]) = _
  rw [storeAll_append, storeAll_one]

theorem run_oauthCallback_none {grant state : String} (hsite : site.herald = some herald)
    (hjar : w.jar.Plain) (hcookie : w.jar.value "RMQTT_OAUTH" = none) :
    (code site (.oauthCallback headers grant state)).run sem w = (.error .unauthorized, w) := by
  have hhandler : (oauthCallback site (seen headers w.jar.requestHeaders) grant state).run sem w =
      (.error .unauthorized, w) := by
    rw [oauthCallback, hsite]
    simp only [getCookie_seen hjar, hcookie, Option.bind_none, run_ret]
  rw [code, run_exchange, hhandler]
  rfl

theorem value_session_set {jar : Jar} {token : TokenResponse}
    (haccess : CookieText token.accessToken) (hrefresh : CookieText token.refreshToken)
    (hne : token.accessToken ≠ "") (hne' : token.refreshToken ≠ "")
    (hage : 0 < token.expiresIn.toInt) (hage' : 0 < token.refreshExpiresIn.toInt) :
    (storeAll jar (sessionCookies token)).value "X-Auth" = some token.accessToken ∧
      (storeAll jar (sessionCookies token)).value "X-Auth-Refresh" = some token.refreshToken := by
  have hstored : storeAll jar (sessionCookies token) =
      (jar.set "X-Auth" token.accessToken).set "X-Auth-Refresh" token.refreshToken := by
    rw [sessionCookies, storeAll_two, set_buildCookie cookieName_auth haccess hage,
      set_buildCookie cookieName_refresh hrefresh hage']
  rw [hstored, value_set_ne (by decide), value_set_self hne, value_set_self hne']
  exact ⟨rfl, rfl⟩

-- A login that Herald grants ends where it began, with the session of the answer. The challenge
-- in the authorize URL is the one of the verifier that the code is exchanged with, and the
-- callback does not work twice.
theorem login_completes (site : Site) (herald : HeraldConfig) (url : Url) (w : World)
    (headers headers' : HeaderMap) (redirect : Option String) (appOrigin returnTo grant : String)
    (token : TokenResponse) (hsite : site.herald = some herald)
    (hurl : site.parse (authorizeBase herald) = some url) (hjar : w.jar.Plain)
    (hresolve : resolveAppOriginAndReturnTo site.parse (seen headers w.jar.requestHeaders)
      redirect =
      .ok (appOrigin, returnTo))
    (haccess : CookieText token.accessToken) (hrefresh : CookieText token.refreshToken)
    (hne : token.accessToken ≠ "") (hne' : token.refreshToken ≠ "")
    (hage : 0 < token.expiresIn.toInt) (hage' : 0 < token.refreshExpiresIn.toInt)
    (hanswer : w.herald w.calls (.token (tokenUrl herald) grant (appOrigin ++ callbackPath)
      herald.clientId (w.random (w.draws + 1) 64)) = .tokens token) :
    ∃ query setCookies setCookies' started finished,
      (code site (.oauthStart headers redirect)).run sem w =
        (.ok ⟨302, some (site.urlText { url with query := some query }), setCookies, none⟩,
          started) ∧
      parse query.toList = parse (url.query.getD "").toList ++
        [("client_id", herald.clientId), ("redirect_uri", appOrigin ++ callbackPath),
          ("state", w.random w.draws 32), ("response_type", "code"),
            ("code_challenge", pkceChallenge site (w.random (w.draws + 1) 64)),
          ("code_challenge_method", "S256")].map (fun (name, value) => (utf8Bytes name,
            utf8Bytes value)) ∧
      (code site (.oauthCallback headers' grant (w.random w.draws 32))).run sem started =
        (.ok ⟨302, some returnTo, setCookies', none⟩, finished) ∧
      finished.calls = .token (tokenUrl herald) grant (appOrigin ++ callbackPath) herald.clientId
        (w.random (w.draws + 1) 64) :: w.calls ∧
      finished.jar.value "X-Auth" = some token.accessToken ∧
      finished.jar.value "X-Auth-Refresh" = some token.refreshToken ∧
      (∀ name, name ∉ ["X-Auth", "X-Auth-Refresh", "RMQTT_OAUTH"] → finished.jar.value name =
        w.jar.value name) ∧
      ∀ again state, (code site (.oauthCallback headers' again state)).run sem finished =
        (.error .unauthorized, finished) := by
  have hquery := parse_appendPairs url
      (authorizePairs herald.clientId (w.nextLogin appOrigin returnTo).redirectUri
    (w.nextLogin appOrigin returnTo).state
      (pkceChallenge site (w.nextLogin appOrigin returnTo).codeVerifier))
  obtain ⟨query, hsome, hparse⟩ := Option.map_eq_some_iff.mp hquery
  have hauthorize : authorizeUrl site herald url (w.nextLogin appOrigin returnTo) = { url with
      query := some query } := by
    rw [← hsome]
    rfl
  have hstart := run_oauthStart hsite hurl hresolve
  rw [hauthorize] at hstart
  generalize hlogin : encodeOauthCookie site (w.nextLogin appOrigin returnTo) = login at hstart
  have hlogin_ne : login ≠ "" := hlogin ▸ encodeOauthCookie_ne site _
  have hlogin_text : CookieText login := hlogin ▸ cookieText_base64Url _
  have hplain : (w.jar.set "RMQTT_OAUTH" login).Plain := plain_set hjar cookieName_oauth hlogin_text
  have hcookie : (w.jar.set "RMQTT_OAUTH" login).value "RMQTT_OAUTH" =
      some (encodeOauthCookie site (w.nextLogin appOrigin returnTo)) := by
    rw [hlogin]
    exact value_set_self hlogin_ne
  have hcallback := @run_oauthCallback site herald
    { w with draws := w.draws + 2, jar := w.jar.set "RMQTT_OAUTH" login } headers' _ grant token
      hsite hplain hcookie
    (printable_returnTo hresolve) haccess hrefresh hanswer
  have hfinished : storeAll (w.jar.set "RMQTT_OAUTH" login)
      (sessionCookies token ++ [clearCookie "RMQTT_OAUTH"]) =
      (storeAll (w.jar.set "RMQTT_OAUTH" login) (sessionCookies token)).store
        (clearCookie "RMQTT_OAUTH") := by
    rw [storeAll_append, storeAll_one]
  have hsession : (storeAll (w.jar.set "RMQTT_OAUTH" login) (sessionCookies token)).value "X-Auth" =
      some token.accessToken ∧
        (storeAll (w.jar.set "RMQTT_OAUTH" login) (sessionCookies token)).value "X-Auth-Refresh" =
      some token.refreshToken :=
    value_session_set haccess hrefresh hne hne' hage hage'
  rw [hfinished] at hcallback
  have hplain' := plain_clear (plain_session haccess hrefresh hplain) cookieName_oauth
  refine ⟨query, _, _, _, _, hstart, hparse, hcallback, rfl, ?_, ?_, ?_, ?_⟩
  · rw [value_clear_ne cookieName_oauth (by decide), hsession.1]
  · rw [value_clear_ne cookieName_oauth (by decide), hsession.2]
  · intro name hname
    simp only [List.mem_cons, List.not_mem_nil, or_false, not_or] at hname
    obtain ⟨hname, hname', hoauth⟩ := hname
    rw [value_clear_ne cookieName_oauth hoauth, value_session_ne haccess hrefresh hname hname',
      value_set_ne hoauth]
  · intro again state
    exact run_oauthCallback_none hsite hplain' (value_clear_self cookieName_oauth)

end Completion

section Demo

def demoHerald : HeraldConfig := ⟨"https://herald.example/", "main", "console"⟩

-- The url crate on the address below.
def demoParse (text : String) : Option Url :=
  if text = "https://herald.example/api/oauth/main/authorize" then
    some ⟨"https", some "herald.example", none, "/api/oauth/main/authorize", none, none⟩
  else none

def demoUrlText (url : Url) : String :=
  url.scheme ++ "://" ++ url.hostStr.getD "" ++ (url.port.map fun port => ":" ++ toString port).getD
    "" ++ url.path ++
    (url.query.map ("?" ++ ·)).getD "" ++ (url.fragment.map ("#" ++ ·)).getD ""

-- The digest of the only verifier below.
def demoSha256 (bytes : List UInt8) : List UInt8 :=
  if bytes = List.replicate 64 98 then
    [160, 250, 177, 55, 127, 73, 167, 89, 181, 127, 99, 49, 130, 98, 235, 232, 159, 171, 252, 153,
      14, 142, 147, 206, 172, 41, 132, 86, 20, 130, 185, 212]
  else []

def demoSite : Site := ⟨some demoHerald, demoParse, demoUrlText, demoSha256, compactCodec⟩

def demoRandom (draw length : Nat) : String :=
  String.ofList (List.replicate length (if draw % 2 = 0 then 'a' else 'b'))

def demoToken : TokenResponse := ⟨"access-1", "refresh-1", 900, 2592000⟩

-- Herald grants every login and rejects the refresh.
def demoAnswer : List HeraldCall → HeraldCall → HeraldAnswer
  | _, .token .. => .tokens demoToken
  | _, _ => .refused

def demoWorld : World := ⟨[], 0, demoRandom, demoAnswer, []⟩

def demoHeaders : HeaderMap := [("host", utf8Bytes "things.example")]

theorem demo_resolve :
    resolveAppOriginAndReturnTo demoSite.parse (seen demoHeaders demoWorld.jar.requestHeaders)
    none =
    .ok ("http://things.example", "/") := by decide +kernel

theorem demo_parse : demoSite.parse (authorizeBase demoHerald) =
    some ⟨"https", some "herald.example", none, "/api/oauth/main/authorize", none, none⟩ := by
  have hbase : authorizeBase demoHerald = "https://herald.example/api/oauth/main/authorize" := by
    decide +kernel
  show demoParse (authorizeBase demoHerald) = _
  rw [demoParse, if_pos hbase]

theorem demo_tokens : CookieText demoToken.accessToken ∧ CookieText demoToken.refreshToken := by
  decide

theorem demo_plain : demoWorld.jar.Plain := by
  intro cookie hmem
  cases hmem

theorem demo_login_completes : ∃ setCookies started finished,
    (code demoSite (.oauthCallback [] "grant-1" (demoRandom 0 32))).run sem started =
      (.ok ⟨302, some "/", setCookies, none⟩, finished) ∧
    finished.jar.value "X-Auth" = some "access-1" := by
  obtain ⟨query, setCookies, setCookies', started, finished, -, -, hcallback, -, hauth, -⟩ :=
    login_completes demoSite demoHerald ⟨"https", some "herald.example", none,
      "/api/oauth/main/authorize", none, none⟩
      demoWorld demoHeaders [] none "http://things.example" "/" "grant-1" demoToken rfl demo_parse
        demo_plain demo_resolve
      demo_tokens.1 demo_tokens.2 (by decide) (by decide) (by decide) (by decide) rfl
  exact ⟨setCookies', started, finished, hcallback, hauth⟩

end Demo

end RmqttThings.Login
