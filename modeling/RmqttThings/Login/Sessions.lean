import RmqttThings.Login.Protocol

namespace RmqttThings.Login

open Access (HeaderMap AuthError)
open Commands (splitOnce splitOnce_append)
open Effects Effects.Prog Effects.Pool Encoding

-- The tokens of Herald can be written into cookies.
def World.TokensPlain (w : World) : Prop :=
  ∀ calls call token, w.herald calls call = .tokens token →
    CookieText token.accessToken ∧ CookieText token.refreshToken

def storeAll (jar : Jar) (setCookies : List String) : Jar := setCookies.foldl Jar.store jar

-- The names of the cookies that a response sets or clears.
def cookieNames (setCookies : List String) : List String :=
  setCookies.filterMap fun header => (splitOnce '=' header).map (·.1)

-- The operations that change what the browser holds under a name.
def Touches (name : String) : Op → Prop
  | .receive setCookies => name ∈ cookieNames setCookies
  | .expire other => other = name
  | _ => False

theorem storeAll_one (jar : Jar) (header : String) : storeAll jar [header] = jar.store header := rfl

theorem storeAll_two (jar : Jar) (first second : String) :
    storeAll jar [first, second] = (jar.store first).store second := rfl

theorem storeAll_append (jar : Jar) (first second : List String) :
    storeAll jar (first ++ second) = storeAll (storeAll jar first) second := List.foldl_append ..

section Stores

variable {jar : Jar} {name other value : String} {age : Int64}

theorem cookieText_base64Url (bytes : List UInt8) : CookieText (base64Url bytes) := by
  have hall : (Alphabet.urlSafe.symbols.all fun char => isVisible char && char != ';') = true := by
    decide +kernel
  intro char hmem
  rw [base64Url, String.toList_ofList] at hmem
  simpa using List.all_eq_true.mp hall char (mem_symbols_of_mem_encodeNoPad _ hmem)

theorem cookieName_oauth : CookieName "RMQTT_OAUTH" := by decide +kernel

theorem cookieName_auth : CookieName "X-Auth" := by decide +kernel

theorem cookieName_refresh : CookieName "X-Auth-Refresh" := by decide +kernel

theorem splitOnce_name {rest : String} (hname : CookieName name)
    (h : rest.toList.head? = some '=') :
    (splitOnce '=' (name ++ rest)).map (·.1) = some name := by
  obtain ⟨tail, htail⟩ := List.head?_eq_some_iff.mp h
  have hlist : name ++ rest = String.ofList (name.toList ++ '=' :: tail) := by
    rw [← String.toList_inj, String.toList_append, htail, String.toList_ofList]
  rw [hlist, splitOnce_append hname.2, Option.map_some, String.ofList_toList]

theorem splitOnce_build (hname : CookieName name) (value : String) (age : Int64) :
    (splitOnce '=' (buildCookie name value age)).map (·.1) = some name := by
  simp only [buildCookie, String.append_assoc]
  exact splitOnce_name hname (by simp)

theorem splitOnce_clear (hname : CookieName name) :
    (splitOnce '=' (clearCookie name)).map (·.1) = some name :=
  splitOnce_name hname (by simp)

theorem plain_build (h : jar.Plain) (hname : CookieName name) (hvalue : CookieText value) :
    (jar.store (buildCookie name value age)).Plain := by
  rw [store_buildCookie hname hvalue]
  split_ifs
  · exact plain_remove h
  · exact plain_set h hname hvalue

theorem plain_clear (h : jar.Plain) (hname : CookieName name) :
    (jar.store (clearCookie name)).Plain := by
  rw [store_clearCookie hname]
  exact plain_remove h

theorem value_build_ne (hname : CookieName name) (hvalue : CookieText value) (h : other ≠ name) :
    (jar.store (buildCookie name value age)).value other = jar.value other := by
  rw [store_buildCookie hname hvalue]
  split_ifs
  · exact value_remove_ne h
  · exact value_set_ne h

theorem value_build_self {found : String} (hname : CookieName name) (hvalue : CookieText value)
    (h : (jar.store (buildCookie name value age)).value name = some found) : found = value := by
  rw [store_buildCookie hname hvalue] at h
  split_ifs at h
  · rw [value_remove_self] at h
    cases h
  · by_cases hempty : value = ""
    · have hnone : (jar.set name value).value name = none := by
        have hremoved : (jar.remove name).value name = none := value_remove_self
        rw [Jar.value] at hremoved ⊢
        rw [Jar.set, List.findSome?_append, hremoved]
        simp [hempty]
      rw [hnone] at h
      cases h
    · rw [value_set_self hempty, Option.some.injEq] at h
      exact h.symm

theorem value_clear_ne (hname : CookieName name) (h : other ≠ name) :
    (jar.store (clearCookie name)).value other = jar.value other := by
  rw [store_clearCookie hname]
  exact value_remove_ne h

theorem value_clear_self (hname : CookieName name) :
    (jar.store (clearCookie name)).value name = none := by
  rw [store_clearCookie hname]
  exact value_remove_self

end Stores

section Responses

variable {site : Site} {request : Request} {past : Past} {setCookies : List String} {jar : Jar}

-- The tokens that a request has got are plain.
def PastPlain (past : Past) : Prop :=
  ∀ call token, ⟨Op.herald call, HeraldAnswer.tokens token⟩ ∈ past →
    CookieText token.accessToken ∧ CookieText token.refreshToken

theorem cookieNames_session (token : TokenResponse) :
    cookieNames (sessionCookies token) = ["X-Auth", "X-Auth-Refresh"] := by
  simp only [cookieNames, sessionCookies, List.filterMap_cons, splitOnce_build cookieName_auth,
    splitOnce_build cookieName_refresh, List.filterMap_nil]

theorem cookieNames_finished (token : TokenResponse) :
    cookieNames (sessionCookies token ++ [clearCookie "RMQTT_OAUTH"]) = ["X-Auth", "X-Auth-Refresh",
      "RMQTT_OAUTH"] := by
  have hsession := cookieNames_session token
  rw [cookieNames] at hsession
  rw [cookieNames, List.filterMap_append, hsession]
  simp only [List.filterMap_cons, splitOnce_clear cookieName_oauth, List.filterMap_nil]
  rfl

theorem cookieNames_began (value : String) (age : Int64) :
    cookieNames [buildCookie "RMQTT_OAUTH" value age] = ["RMQTT_OAUTH"] := by
  simp only [cookieNames, List.filterMap_cons, splitOnce_build cookieName_oauth, List.filterMap_nil]

theorem cookieNames_loggedOut :
    cookieNames [clearCookie "X-Auth", clearCookie "X-Auth-Refresh"] = ["X-Auth",
      "X-Auth-Refresh"] := by
  simp only [cookieNames, List.filterMap_cons, splitOnce_clear cookieName_auth,
    splitOnce_clear cookieName_refresh, List.filterMap_nil]

theorem plain_session {token : TokenResponse} (haccess : CookieText token.accessToken)
    (hrefresh : CookieText token.refreshToken) (h : jar.Plain) :
    (storeAll jar (sessionCookies token)).Plain := by
  rw [sessionCookies, storeAll_two]
  exact plain_build (plain_build h cookieName_auth haccess) cookieName_refresh hrefresh

theorem value_session_ne {token : TokenResponse} (haccess : CookieText token.accessToken)
    (hrefresh : CookieText token.refreshToken) {name : String} (h : name ≠ "X-Auth")
    (h' : name ≠ "X-Auth-Refresh") :
    (storeAll jar (sessionCookies token)).value name = jar.value name := by
  rw [sessionCookies, storeAll_two, value_build_ne cookieName_refresh hrefresh h',
    value_build_ne cookieName_auth haccess h]

theorem plain_receives (hreceives : Receives site request past setCookies)
    (htokens : PastPlain past) (h : jar.Plain) :
    (storeAll jar setCookies).Plain := by
  cases hreceives with
  | nothing => exact h
  | began _ =>
      rw [storeAll_one]
      exact plain_build h cookieName_oauth (cookieText_base64Url _)
  | @finished _ _ _ call token past _ =>
      obtain ⟨haccess, hrefresh⟩ := htokens call token List.mem_cons_self
      rw [storeAll_append, storeAll_one]
      exact plain_clear (plain_session haccess hrefresh h) cookieName_oauth
  | @refreshed _ call token past _ =>
      obtain ⟨haccess, hrefresh⟩ := htokens call token List.mem_cons_self
      exact plain_session haccess hrefresh h
  | loggedOut =>
      rw [storeAll_two]
      exact plain_clear (plain_clear h cookieName_auth) cookieName_refresh

-- What a response does not touch it leaves.
theorem value_receives {name : String} (hreceives : Receives site request past setCookies)
    (htokens : PastPlain past) (h : ¬Touches name (.receive setCookies)) :
    (storeAll jar setCookies).value name = jar.value name := by
  cases hreceives with
  | nothing => rfl
  | began _ =>
      simp only [Touches, cookieNames_began, List.mem_singleton] at h
      rw [storeAll_one, encodeOauthCookie,
        value_build_ne cookieName_oauth (cookieText_base64Url _) h]
  | @finished _ _ _ call token past _ =>
      obtain ⟨haccess, hrefresh⟩ := htokens call token List.mem_cons_self
      simp only [Touches, cookieNames_finished, List.mem_cons, List.not_mem_nil, or_false,
        not_or] at h
      obtain ⟨hauth, hrefreshed, hoauth⟩ := h
      rw [storeAll_append, storeAll_one, value_clear_ne cookieName_oauth hoauth,
        value_session_ne haccess hrefresh hauth hrefreshed]
  | @refreshed _ call token past _ =>
      obtain ⟨haccess, hrefresh⟩ := htokens call token List.mem_cons_self
      simp only [Touches, cookieNames_session, List.mem_cons, List.not_mem_nil, or_false,
        not_or] at h
      exact value_session_ne haccess hrefresh h.1 h.2
  | loggedOut =>
      simp only [Touches, cookieNames_loggedOut, List.mem_cons, List.not_mem_nil, or_false,
        not_or] at h
      rw [storeAll_two, value_clear_ne cookieName_refresh h.2, value_clear_ne cookieName_auth h.1]

end Responses

section Runs

variable {site : Site} {start : World} {served : Nat → Request → Prop}

-- What a thread of the run does by its request and its own past.
abbrev Rule (site : Site) (served : Nat → Request → Prop) (thread : Nat) (past : Past) (op : Op) :
    Prop :=
  ∃ request, served thread request ∧ Allowed site request past op

-- The requests of a run.
def Serves (site : Site) (start : World) (moves : List (Move Request)) (thread : Nat)
    (request : Request) : Prop :=
  ∃ program, (play sem (code site) moves start).threads[thread]? = some ⟨request, program⟩

theorem justified_run (site : Site) (start : World) (moves : List (Move Request)) :
    Justified sem (Rule site (Serves site start moves)) start
      (play sem (code site) moves start).log := by
  apply (justified_play sem (code site) code_spec moves start).mono
  rintro thread past op ⟨⟨request, program⟩, hserved, hallowed⟩
  exact ⟨request, ⟨program, hserved⟩, hallowed⟩

theorem herald_replay (log : List (Nat × Event Op.Ans)) :
    (replay sem start log).herald = start.herald := by
  induction log with
  | nil => rfl
  | cons entry log ih =>
      obtain ⟨thread, op, answer⟩ := entry
      cases op with
      | send => exact ih
      | randomToken length => exact ih
      | herald call => exact ih
      | receive setCookies => exact ih
      | expire name => exact ih

-- Every token of the log is an answer of Herald.
theorem pastPlain_history (htokens : start.TokensPlain) {log : List (Nat × Event Op.Ans)}
    (h : Justified sem (Rule site served) start log) (thread : Nat) :
    PastPlain (history thread log) := by
  intro call token hmem
  rw [mem_history] at hmem
  induction log with
  | nil => cases hmem
  | cons entry log ih =>
      rcases List.mem_cons.mp hmem with rfl | hmem
      · have hanswer : (replay sem start log).herald (replay sem start log).calls call =
            .tokens token := h.2.1.symm
        rw [herald_replay] at hanswer
        exact htokens _ _ _ hanswer
      · exact ih h.2.2 hmem

theorem plain_replay (hjar : start.jar.Plain) (htokens : start.TokensPlain)
    {log : List (Nat × Event Op.Ans)}
    (h : Justified sem (Rule site served) start log) : (replay sem start log).jar.Plain := by
  induction log with
  | nil => exact hjar
  | cons entry log ih =>
      obtain ⟨thread, op, answer⟩ := entry
      have hbefore := ih h.2.2
      cases op with
      | send => exact hbefore
      | randomToken length => exact hbefore
      | herald call => exact hbefore
      | receive setCookies =>
          obtain ⟨request, -, hreceives⟩ := h.1
          exact plain_receives hreceives (pastPlain_history htokens h.2.2 thread) hbefore
      | expire name => exact plain_remove hbefore

theorem value_untouched (htokens : start.TokensPlain) {entry : Nat × Event Op.Ans}
    {log : List (Nat × Event Op.Ans)} (h : Justified sem (Rule site served) start (entry :: log))
    {name : String} (hname : ¬Touches name entry.2.1) :
    (replay sem start (entry :: log)).jar.value name = (replay sem start log).jar.value name := by
  obtain ⟨thread, op, answer⟩ := entry
  cases op with
  | send => rfl
  | randomToken length => rfl
  | herald call => rfl
  | receive setCookies =>
      obtain ⟨request, -, hreceives⟩ := h.1
      exact value_receives hreceives (pastPlain_history htokens h.2.2 thread) hname
  | expire other => exact value_remove_ne fun he => hname he.symm

-- A response is the last one that has changed what the browser holds under a name.
structure LastResponse (site : Site) (served : Nat → Request → Prop) (name : String)
    (log : List (Nat × Event Op.Ans)) (thread : Nat) (request : Request) (setCookies : List String)
    (before : List (Nat × Event Op.Ans)) : Prop where
  serves : served thread request
  receives : Receives site request (history thread before) setCookies
  touches : name ∈ cookieNames setCookies
  log_eq : ∃ between, log = between ++ (thread, ⟨.receive setCookies, ()⟩) :: before ∧
    ∀ entry ∈ between, ¬Touches name entry.2.1

theorem lastResponse (htokens : start.TokensPlain) {log : List (Nat × Event Op.Ans)}
    (h : Justified sem (Rule site served) start log) {name value : String}
    (hnone : start.jar.value name = none)
    (hvalue : (replay sem start log).jar.value name = some value) :
    ∃ thread request setCookies before, LastResponse site served name log thread request
      setCookies before ∧
      (storeAll (replay sem start before).jar setCookies).value name = some value := by
  have hframe : ∀ later entry earlier, log = later ++ entry :: earlier → ¬Touches name entry.2.1 →
      (replay sem start (entry :: earlier)).jar.value name = (replay sem start earlier).jar.value
        name := by
    rintro later entry earlier rfl hname
    exact value_untouched htokens (h.suffix ⟨later, rfl⟩) hname
  rcases replay_last sem start log (fun entry => Touches name entry.2.1) (fun w => w.jar.value name)
    hframe with
    ⟨-, hstart⟩ | ⟨later, ⟨thread, op, answer⟩, earlier, rfl, htouch, hlater, hlast⟩
  · rw [hvalue, hnone] at hstart
    cases hstart
  · have hpart := hlast.symm.trans hvalue
    cases op with
    | receive setCookies =>
        obtain ⟨⟨request, hserved, hreceives⟩, -, -⟩ := h.suffix ⟨later, rfl⟩
        exact ⟨thread, request, setCookies, earlier, ⟨hserved, hreceives, htouch, later, rfl,
          hlater⟩, hpart⟩
    | expire other =>
        obtain rfl : other = name := htouch
        have hgone : ((replay sem start earlier).jar.remove other).value other = none :=
          value_remove_self
        cases hgone.symm.trans hpart
    | send => cases htouch
    | randomToken length => cases htouch
    | herald call => cases htouch

-- What the handlers read is what the browser held when it sent the request.
theorem getCookie_seen {jar : Jar} (h : jar.Plain) (headers : HeaderMap) (name : String) :
    getCookie (seen headers jar.requestHeaders) name = jar.value name := by
  have hnone : (headers.filter (·.1 ≠ "cookie")).lookup "cookie" = none := by
    rw [List.lookup_eq_none_iff]
    intro header hmem
    have hne := (List.mem_filter.mp hmem).2
    simp only [ne_eq, decide_not, Bool.not_eq_true', decide_eq_false_iff_not] at hne
    simpa using Ne.symm hne
  have hlookup : (seen headers jar.requestHeaders).lookup "cookie" = jar.requestHeaders.lookup
      "cookie" := by
    rw [seen, List.lookup_append, hnone, Option.none_or]
  have hsame : getCookie (seen headers jar.requestHeaders) name = getCookie jar.requestHeaders
      name := by
    rw [getCookie, hlookup, getCookie]
  rw [hsame, getCookie_requestHeaders h]

theorem decode_encode (site : Site) (cookie : OAuthCookie) :
    decodeOauthCookie site (encodeOauthCookie site cookie) = some cookie := by
  rw [decodeOauthCookie, encodeOauthCookie, base64Url, String.toList_ofList,
    decodeNoPad_encodeNoPad, Option.bind_some, site.codec.fromSlice_toString]

-- The cookies that a request was sent with.
theorem sent_cookies {log : List (Nat × Event Op.Ans)} {thread : Nat} {cookies : HeaderMap}
    (hjar : start.jar.Plain) (htokens : start.TokensPlain)
    (h : Justified sem (Rule site served) start log)
    (hhistory : history thread log = [⟨.send, cookies⟩]) :
    ∃ later sent, log = later ++ (thread, ⟨.send, cookies⟩) :: sent ∧
      Justified sem (Rule site served) start sent ∧
      ∀ headers name, getCookie (seen headers cookies) name = (replay sem start sent).jar.value
        name := by
  obtain ⟨later, sent, rfl, -, -⟩ := history_eq_cons hhistory
  obtain ⟨-, hanswer, hsent⟩ := h.suffix ⟨later, rfl⟩
  obtain rfl : cookies = (replay sem start sent).jar.requestHeaders := hanswer
  exact ⟨later, sent, rfl, hsent,
    fun headers name => getCookie_seen (plain_replay hjar htokens hsent) headers name⟩

-- The token that a login keeps under a name.
def TokenResponse.under (token : TokenResponse) (name : String) : String :=
  if name = "X-Auth" then token.accessToken else token.refreshToken

theorem under_auth (token : TokenResponse) : token.under "X-Auth" = token.accessToken := if_pos rfl

theorem under_refresh (token : TokenResponse) : token.under "X-Auth-Refresh" = token.refreshToken :=
  if_neg (by decide)

-- The tokens that the last response with a session has set.
structure Issued (past : Past) (setCookies : List String) (token : TokenResponse) : Prop where
  answered : ∃ call before, past = ⟨.herald call, .tokens token⟩ :: before ∧ call.Issues
  names : "X-Auth" ∈ cookieNames setCookies ∧ "X-Auth-Refresh" ∈ cookieNames setCookies

theorem value_session_under {jar : Jar} {token : TokenResponse}
    (haccess : CookieText token.accessToken) (hrefresh : CookieText token.refreshToken)
    {name value : String} (hname : name = "X-Auth" ∨ name = "X-Auth-Refresh")
    (h : (storeAll jar (sessionCookies token)).value name = some value) :
    value = token.under name := by
  rcases hname with rfl | rfl
  · have hfirst : (storeAll jar (sessionCookies token)).value "X-Auth" =
        (jar.store (buildCookie "X-Auth" token.accessToken token.expiresIn)).value "X-Auth" := by
      rw [sessionCookies, storeAll_two, value_build_ne cookieName_refresh hrefresh (by decide)]
    exact (value_build_self cookieName_auth haccess (hfirst.symm.trans h)).trans
      (under_auth token).symm
  · rw [sessionCookies, storeAll_two] at h
    exact (value_build_self cookieName_refresh hrefresh h).trans (under_refresh token).symm

theorem issued_of_receives {request : Request} {past : Past} {setCookies : List String} {jar : Jar}
    {name value : String} (hreceives : Receives site request past setCookies)
    (htokens : PastPlain past) (hname : name = "X-Auth" ∨ name = "X-Auth-Refresh")
    (htouches : name ∈ cookieNames setCookies)
    (hvalue : (storeAll jar setCookies).value name = some value) :
    ∃ token, Issued past setCookies token ∧ value = token.under name := by
  have hoauth : name ≠ "RMQTT_OAUTH" := by
    rcases hname with rfl | rfl
    · decide
    · decide
  cases hreceives with
  | nothing => cases htouches
  | began _ =>
      rw [cookieNames_began, List.mem_singleton] at htouches
      exact absurd htouches hoauth
  | @finished _ _ _ call token past hissues =>
      obtain ⟨haccess, hrefresh⟩ := htokens call token List.mem_cons_self
      rw [storeAll_append, storeAll_one, value_clear_ne cookieName_oauth hoauth] at hvalue
      exact ⟨token, ⟨⟨call, past, rfl, hissues⟩, by simp [cookieNames_finished]⟩,
        value_session_under haccess hrefresh hname hvalue⟩
  | @refreshed _ call token past hissues =>
      obtain ⟨haccess, hrefresh⟩ := htokens call token List.mem_cons_self
      exact ⟨token, ⟨⟨call, past, rfl, hissues⟩, by simp [cookieNames_session]⟩,
        value_session_under haccess hrefresh hname hvalue⟩
  | loggedOut =>
      rw [storeAll_two] at hvalue
      rcases hname with rfl | rfl
      · rw [value_clear_ne cookieName_refresh (by decide),
          value_clear_self cookieName_auth] at hvalue
        cases hvalue
      · rw [value_clear_self cookieName_refresh] at hvalue
        cases hvalue

end Runs

end RmqttThings.Login
