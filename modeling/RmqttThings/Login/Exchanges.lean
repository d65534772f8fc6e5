import RmqttThings.Effects.Solo
import RmqttThings.Login.Completion

namespace RmqttThings.Login

open Access (HeaderMap)
open Effects Effects.Prog Effects.Pool

section Exchanges

variable (site : Site) (start : World) (moves : List (Move Request))

-- Whatever else the browser does meanwhile, a code is exchanged with the verifier and the
-- redirect URI of the last login that it had begun when it sent the callback, and the state
-- in the URL of the callback is the one of that login. No response has come between them
-- that sets or clears the cookie.
theorem exchange_of_last_login (hjar : start.jar.Plain)
    (hnone : start.jar.value "RMQTT_OAUTH" = none) (htokens : start.TokensPlain)
    (later earlier : List (Nat × Event Op.Ans)) (thread : Nat)
    (url code redirectUri clientId codeVerifier : String) (answer : HeraldAnswer)
    (h : (play sem (Login.code site) moves start).log =
      later ++ (thread, ⟨.herald (.token url code redirectUri clientId codeVerifier), answer⟩) ::
        earlier) :
    ∃ headers state cookies between sent starter headers' redirect returnTo before,
      Serves site start moves thread (.oauthCallback headers code state) ∧
      earlier = between ++ (thread, ⟨.send, cookies⟩) :: sent ∧
      LastResponse site (Serves site start moves) "RMQTT_OAUTH" sent starter
        (.oauthStart headers' redirect)
        [buildCookie "RMQTT_OAUTH" (encodeOauthCookie site ⟨state, codeVerifier, returnTo,
          redirectUri⟩) 300] before ∧
      Began site headers' redirect (history starter before) ⟨state, codeVerifier, returnTo,
        redirectUri⟩ := by
  obtain ⟨⟨request, hserves, hallowed⟩, -, hearlier⟩ :=
    (justified_run site start moves).suffix ⟨later, h.symm⟩
  obtain ⟨headers, herald, cookies, value, cookie, hhistory, -, -, -, hvalue, hdecode, rfl, rfl,
      rfl⟩ := hallowed
  obtain ⟨between, sent, rfl, hsent, hcookies⟩ := sent_cookies hjar htokens hearlier hhistory
  rw [hcookies] at hvalue
  obtain ⟨starter, begun, setCookies, before, hlast, hset⟩ :=
    lastResponse htokens hsent hnone hvalue
  have htouches := hlast.touches
  have hreceives := hlast.receives
  generalize hpast : history starter before = past at hreceives
  cases hreceives with
  | nothing => cases htouches
  | @began headers' redirect _ kept hbegan =>
      rw [storeAll_one] at hset
      have hkept : value = encodeOauthCookie site kept :=
        value_build_self cookieName_oauth (cookieText_base64Url _) hset
      rw [hkept, decode_encode, Option.some.injEq] at hdecode
      subst hdecode
      exact ⟨headers, kept.state, cookies, between, sent, starter, headers', redirect,
        kept.returnTo, before, hserves, rfl, hlast, hpast.symm ▸ hbegan⟩
  | finished hissues =>
      rw [storeAll_append, storeAll_one, value_clear_self cookieName_oauth] at hset
      cases hset
  | refreshed hissues =>
      rw [cookieNames_session] at htouches
      exact absurd htouches (by decide)
  | loggedOut =>
      rw [cookieNames_loggedOut] at htouches
      exact absurd htouches (by decide)

section Demo

def demoStart : Request := .oauthStart demoHeaders none

def demoCookie : OAuthCookie := demoWorld.nextLogin "http://things.example" "/"

def demoCallback : Request := .oauthCallback [] "grant-1" demoCookie.state

def demoStarted : List (Move Request) := andThen sem (Login.code demoSite) demoWorld [] demoStart

def demoFinished : List (Move Request) :=
  andThen sem (Login.code demoSite) demoWorld demoStarted demoCallback

theorem demoTokens_plain : demoWorld.TokensPlain := by
  intro calls made token hanswer
  cases made with
  | token url code redirectUri clientId codeVerifier =>
      cases hanswer
      exact demo_tokens
  | refresh url presented => cases hanswer
  | logout url presented => cases hanswer

theorem state_demoStarted : (play sem (Login.code demoSite) demoStarted demoWorld).state =
    { demoWorld with draws := 2, jar :=
      demoWorld.jar.set "RMQTT_OAUTH" (encodeOauthCookie demoSite demoCookie) } := by
  rw [demoStarted, play_andThen]
  exact congrArg Prod.snd (run_oauthStart rfl demo_parse demo_resolve)

theorem plain_demoStarted :
    (play sem (Login.code demoSite) demoStarted demoWorld).state.jar.Plain := by
  rw [state_demoStarted]
  exact plain_set demo_plain cookieName_oauth (cookieText_base64Url _)

theorem value_demoStarted :
    (play sem (Login.code demoSite) demoStarted demoWorld).state.jar.value "RMQTT_OAUTH" =
    some (encodeOauthCookie demoSite demoCookie) := by
  rw [state_demoStarted]
  exact value_set_self (encodeOauthCookie_ne demoSite demoCookie)

theorem threads_demoStarted :
    (play sem (Login.code demoSite) demoStarted demoWorld).threads.length = 1 := by
  rw [demoStarted, play_andThen]
  rfl

-- What a request that calls Herald once adds to the log.
theorem map_trace {trace : List (Event Op.Ans)} {received made sent : Event Op.Ans}
    (h : trace = [received, made, sent]) (thread : Nat) (log : List (Nat × Event Op.Ans)) :
    trace.map (thread, ·) ++ log = [(thread, received)] ++ (thread, made) :: (thread, sent) ::
      log := by
  rw [h]
  rfl

theorem log_demoFinished :
    ∃ later answer earlier, (play sem (Login.code demoSite) demoFinished demoWorld).log =
    later ++ (1, ⟨.herald (.token (tokenUrl demoHerald) "grant-1" demoCookie.redirectUri
      demoHerald.clientId demoCookie.codeVerifier), answer⟩) :: earlier := by
  obtain ⟨received, answer, cookies, htrace⟩ :=
    @trace_oauthCallback demoSite demoHerald _ [] demoCookie "grant-1" rfl
    plain_demoStarted value_demoStarted
  rw [← demoCallback] at htrace
  rw [demoFinished, play_andThen, threads_demoStarted]
  exact ⟨_, answer, _, map_trace htrace 1 _⟩

theorem jar_demoFinished :
    ∃ jar : Jar, jar.Plain ∧ (play sem (Login.code demoSite) demoFinished demoWorld).state.jar =
    (storeAll jar (sessionCookies demoToken)).store (clearCookie "RMQTT_OAUTH") := by
  have hreturn : Printable demoCookie.returnTo := by decide
  have hanswer : (play sem (Login.code demoSite) demoStarted demoWorld).state.herald
      (play sem (Login.code demoSite) demoStarted demoWorld).state.calls
        (.token (tokenUrl demoHerald) "grant-1"
        demoCookie.redirectUri demoHerald.clientId demoCookie.codeVerifier) =
          .tokens demoToken := by
    rw [state_demoStarted]
    rfl
  have hjar := @jar_oauthCallback demoSite demoHerald _ [] demoCookie "grant-1" demoToken rfl
      plain_demoStarted
    value_demoStarted hreturn demo_tokens.1 demo_tokens.2 hanswer
  rw [← demoCallback] at hjar
  refine ⟨_, plain_demoStarted, ?_⟩
  rw [demoFinished, play_andThen, hjar]

theorem plain_demoFinished :
    (play sem (Login.code demoSite) demoFinished demoWorld).state.jar.Plain := by
  obtain ⟨jar, hplain, hjar⟩ := jar_demoFinished
  rw [hjar]
  exact plain_clear (plain_session demo_tokens.1 demo_tokens.2 hplain) cookieName_oauth

theorem value_demoFinished :
    (play sem (Login.code demoSite) demoFinished demoWorld).state.jar.value "X-Auth" =
      some "access-1" ∧
      (play sem (Login.code demoSite) demoFinished demoWorld).state.jar.value "X-Auth-Refresh" =
        some "refresh-1" := by
  obtain ⟨jar, -, hjar⟩ := jar_demoFinished
  have hsession : (storeAll jar (sessionCookies demoToken)).value "X-Auth" = some "access-1" ∧
      (storeAll jar (sessionCookies demoToken)).value "X-Auth-Refresh" = some "refresh-1" :=
    value_session_set demo_tokens.1 demo_tokens.2 (by decide) (by decide) (by decide) (by decide)
  rw [hjar]
  rw [value_clear_ne cookieName_oauth (by decide), value_clear_ne cookieName_oauth (by decide)]
  exact hsession

def demoRefreshed : List (Move Request) :=
  andThen sem (Login.code demoSite) demoWorld demoFinished (.refreshToken [])

theorem threads_demoFinished :
    (play sem (Login.code demoSite) demoFinished demoWorld).threads.length = 2 := by
  rw [demoFinished, play_andThen, List.length_append, threads_demoStarted]
  rfl

theorem log_demoRefreshed :
    ∃ later answer earlier, (play sem (Login.code demoSite) demoRefreshed demoWorld).log =
    later ++ (2, ⟨.herald (.refresh (refreshUrl demoHerald) "refresh-1"), answer⟩) :: earlier := by
  obtain ⟨received, answer, cookies, htrace⟩ :=
    @trace_refreshToken demoSite demoHerald _ [] "refresh-1" rfl
    plain_demoFinished value_demoFinished.2
  rw [demoRefreshed, play_andThen, threads_demoFinished]
  exact ⟨_, answer, _, map_trace htrace 2 _⟩

end Demo

theorem demo_exchange_of_last_login : ∃ headers state program,
    (play sem (Login.code demoSite) demoFinished demoWorld).threads[1]? =
      some ⟨.oauthCallback headers "grant-1" state, program⟩ := by
  obtain ⟨later, answer, earlier, hlog⟩ := log_demoFinished
  obtain ⟨headers, state, _, _, _, _, _, _, _, _, ⟨program, hserves⟩, -⟩ :=
    exchange_of_last_login demoSite demoWorld demoFinished demo_plain rfl demoTokens_plain later
      earlier 1 _ _ _ _ _ _ hlog
  exact ⟨headers, state, program, hserves⟩

-- The answer that a token of the browser comes from.
theorem issued_of_value (htokens : start.TokensPlain) {served : Nat → Request → Prop}
    {log : List (Nat × Event Op.Ans)} (hlog : Justified sem (Rule site served) start log)
    {name value : String} (hname : name = "X-Auth" ∨ name = "X-Auth-Refresh")
    (hnone : start.jar.value name = none)
    (hvalue : (replay sem start log).jar.value name = some value) :
    ∃ thread request setCookies before token, LastResponse site served name log thread request
      setCookies before ∧
      Issued (history thread before) setCookies token ∧ value = token.under name := by
  obtain ⟨thread, request, setCookies, before, hlast, hset⟩ :=
    lastResponse htokens hlog hnone hvalue
  have hbefore : Justified sem (Rule site served) start before := by
    obtain ⟨between, rfl, -⟩ := hlast.log_eq
    exact hlog.suffix (suffix_of_eq_append rfl)
  obtain ⟨token, hissued, hunder⟩ :=
    issued_of_receives hlast.receives (pastPlain_history htokens hbefore thread) hname
    hlast.touches hset
  exact ⟨thread, request, setCookies, before, token, hlast, hissued, hunder⟩

-- A response that sets both cookies is the last one for both or for none of them.
theorem lastResponse_unique {served : Nat → Request → Prop}
    {log before before' : List (Nat × Event Op.Ans)} {name name' : String} {thread thread' : Nat}
    {request request' : Request} {setCookies setCookies' : List String}
    (h : LastResponse site served name log thread request setCookies before)
    (h' : LastResponse site served name' log thread' request' setCookies' before')
    (hboth : name' ∈ cookieNames setCookies) (hboth' : name ∈ cookieNames setCookies') :
    thread = thread' ∧ setCookies = setCookies' ∧ before = before' := by
  obtain ⟨between, rfl, hbetween⟩ := h.log_eq
  obtain ⟨between', heq, hbetween'⟩ := h'.log_eq
  rcases same_or_mem_of_append_eq heq with ⟨-, hentry, hbefore⟩ | ⟨hmem, -⟩ | ⟨hmem, -⟩
  · cases hentry
    exact ⟨rfl, rfl, hbefore⟩
  · exact absurd hboth (hbetween' _ hmem)
  · exact absurd hboth' (hbetween _ hmem)

-- At every moment of every run the two tokens that the browser holds come from one answer of
-- Herald, the one of the last response that has changed either cookie.
theorem session_of_one_answer (haccess : start.jar.value "X-Auth" = none)
    (hrefresh : start.jar.value "X-Auth-Refresh" = none) (htokens : start.TokensPlain)
    (access refresh : String)
    (h : (play sem (Login.code site) moves start).state.jar.value "X-Auth" = some access)
    (h' : (play sem (Login.code site) moves start).state.jar.value "X-Auth-Refresh" =
      some refresh) :
    ∃ thread request setCookies before token,
      LastResponse site (Serves site start moves) "X-Auth"
        (play sem (Login.code site) moves start).log thread request setCookies before ∧
      LastResponse site (Serves site start moves) "X-Auth-Refresh"
        (play sem (Login.code site) moves start).log thread request setCookies before ∧
      Issued (history thread before) setCookies token ∧ access = token.accessToken ∧
        refresh = token.refreshToken := by
  have hlog := justified_run site start moves
  rw [state_eq_replay] at h h'
  obtain ⟨thread, request, setCookies, before, token, hlast, hissued, hvalue⟩ :=
    issued_of_value site start htokens hlog (.inl rfl) haccess h
  obtain ⟨thread', request', setCookies', before', token', hlast', hissued', hvalue'⟩ :=
    issued_of_value site start htokens hlog (.inr rfl) hrefresh h'
  obtain ⟨rfl, rfl, rfl⟩ := lastResponse_unique site hlast hlast' hissued.names.2 hissued'.names.1
  obtain ⟨⟨call, past, hpast, -⟩, -⟩ := hissued
  obtain ⟨⟨call', past', hpast', -⟩, -⟩ := id hissued'
  obtain rfl : token = token' := by
    rw [hpast, List.cons.injEq] at hpast'
    obtain ⟨hevent, -⟩ := hpast'
    cases hevent
    rfl
  rw [under_auth] at hvalue
  rw [under_refresh] at hvalue'
  refine ⟨thread, request, setCookies, before, token, hlast, ?_, hissued', hvalue, hvalue'⟩
  exact ⟨hlast.serves, hlast.receives, hlast'.touches, hlast'.log_eq⟩

theorem demo_session_of_one_answer : ∃ thread request setCookies before token,
    LastResponse demoSite (Serves demoSite demoWorld demoFinished) "X-Auth"
      (play sem (Login.code demoSite) demoFinished demoWorld).log thread request setCookies before ∧
    "access-1" = TokenResponse.accessToken token ∧
      "refresh-1" = TokenResponse.refreshToken token := by
  obtain ⟨thread, request, setCookies, before, token, hlast, -, -, haccess, hrefresh⟩ :=
    session_of_one_answer demoSite demoWorld demoFinished rfl rfl demoTokens_plain
      _ _ value_demoFinished.1 value_demoFinished.2
  exact ⟨thread, request, setCookies, before, token, hlast, haccess, hrefresh⟩

-- The cookie that the token of a call is from.
def HeraldCall.presents : HeraldCall → Option (String × String)
  | .token .. => none
  | .refresh _ presented => some ("X-Auth-Refresh", presented)
  | .logout _ presented => some ("X-Auth", presented)

theorem getCookie_of_presents {request : Request} {past : Past} {call : HeraldCall}
    {name presented : String} (h : Allowed site request past (.herald call))
    (hcall : call.presents = some (name, presented)) :
    (name = "X-Auth" ∨ name = "X-Auth-Refresh") ∧
      ∃ headers cookies, past = [⟨.send, cookies⟩] ∧ getCookie (seen headers cookies) name =
        some presented := by
  cases call with
  | token url code redirectUri clientId codeVerifier => cases hcall
  | refresh url token =>
      cases hcall
      obtain ⟨headers, cookies, hpast, -, hvalue⟩ := h
      exact ⟨.inr rfl, headers, cookies, hpast, hvalue⟩
  | logout url token =>
      cases hcall
      obtain ⟨headers, cookies, hpast, -, hvalue⟩ := h
      exact ⟨.inl rfl, headers, cookies, hpast, hvalue⟩

-- A token is presented to Herald only if Herald has issued it to this browser before: it is the
-- one of the last response that had changed its cookie when the browser sent the request.
theorem presented_was_issued (hjar : start.jar.Plain) (haccess : start.jar.value "X-Auth" = none)
    (hrefresh : start.jar.value "X-Auth-Refresh" = none) (htokens : start.TokensPlain)
    (later earlier : List (Nat × Event Op.Ans)) (thread : Nat) (call : HeraldCall)
    (answer : HeraldAnswer)
    (h : (play sem (Login.code site) moves start).log = later ++ (thread, ⟨.herald call, answer⟩) ::
      earlier)
    (name presented : String) (hcall : call.presents = some (name, presented)) :
    ∃ between cookies sent issuer request setCookies before token,
      earlier = between ++ (thread, ⟨.send, cookies⟩) :: sent ∧
      LastResponse site (Serves site start moves) name sent issuer request setCookies before ∧
      Issued (history issuer before) setCookies token ∧ presented = token.under name := by
  obtain ⟨⟨request, -, hallowed⟩, -, hearlier⟩ :=
    (justified_run site start moves).suffix ⟨later, h.symm⟩
  obtain ⟨hname, headers, cookies, hhistory, hvalue⟩ := getCookie_of_presents site hallowed hcall
  obtain ⟨between, sent, rfl, hsent, hcookies⟩ := sent_cookies hjar htokens hearlier hhistory
  rw [hcookies] at hvalue
  have hnone : start.jar.value name = none := by
    rcases hname with rfl | rfl
    · exact haccess
    · exact hrefresh
  obtain ⟨issuer, other, setCookies, before, token, hlast, hissued, hunder⟩ :=
    issued_of_value site start htokens hsent hname hnone hvalue
  exact ⟨between, cookies, sent, issuer, other, setCookies, before, token, rfl, hlast,
    hissued, hunder⟩

theorem demo_presented_was_issued :
    ∃ token : TokenResponse, "refresh-1" = token.under "X-Auth-Refresh" := by
  obtain ⟨later, answer, earlier, hlog⟩ := log_demoRefreshed
  obtain ⟨_, _, _, _, _, _, _, token, -, -, -, hunder⟩ :=
    presented_was_issued demoSite demoWorld demoRefreshed demo_plain
    rfl rfl demoTokens_plain later earlier 2 _ _ hlog "X-Auth-Refresh" "refresh-1" rfl
  exact ⟨token, hunder⟩

end Exchanges

end RmqttThings.Login
