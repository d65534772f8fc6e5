import RmqttThings.Commands.Topics

namespace RmqttThings.Access

open Api (ApiError)
open Commands (startsWith startsWith_iff)

-- A parsed URL, as its accessors show it. The port is missing where it is the scheme's own.
structure Url where
  scheme : String
  hostStr : Option String
  port : Option UInt16
  path : String
  query : Option String
  fragment : Option String

-- The values of the headers, by lower-case name.
abbrev HeaderMap : Type := List (String × List UInt8)

-- `HeaderValue::to_str`: visible ASCII and tabs only.
def toStr (value : List UInt8) : Option String :=
  if value.all fun byte => (32 ≤ byte.toNat ∧ byte.toNat < 127) ∨ byte.toNat = 9 then
    some (String.ofList (value.map fun byte => Char.ofNat byte.toNat))
  else none

-- `char::is_control`.
def isControl (char : Char) : Bool := char.toNat < 32 || (127 ≤ char.toNat && char.toNat < 160)

def urlOrigin (url : Url) : Except ApiError String :=
  if url.scheme != "http" && url.scheme != "https" then .error
    (.badRequest "invalid redirect URL scheme")
  else
    match url.hostStr with
    | none => .error (.badRequest "invalid redirect URL host")
    | some host =>
        .ok (url.scheme ++ "://" ++ host ++ (url.port.map fun port => ":" ++ toString port).getD "")

def requestOrigin (headers : HeaderMap) : Except ApiError String :=
  let proto := ((headers.lookup "x-forwarded-proto").bind toStr).getD "http"
  match (headers.lookup "x-forwarded-host" <|> headers.lookup "host").bind toStr with
  | none => .error (.badRequest "missing host header")
  | some host => .ok (proto ++ "://" ++ host)

def safeReturnPath (path : String) : String :=
  if startsWith path "/" && !startsWith path "//" && !path.toList.any isControl then path else "/"

-- The path of an absolute URL with its query and fragment.
def returnPath (url : Url) : String :=
  url.path ++ (url.query.map ("?" ++ ·)).getD "" ++ (url.fragment.map ("#" ++ ·)).getD ""

-- `parse` is `Url::parse`.
def resolveAppOriginAndReturnTo (parse : String → Option Url) (headers : HeaderMap)
    (redirect : Option String) :
    Except ApiError (String × String) :=
  match redirect with
  | none => (requestOrigin headers).map (·, "/")
  | some redirect =>
      match parse redirect with
      | some url => (urlOrigin url).map (·, safeReturnPath (returnPath url))
      | none =>
          if startsWith redirect "/" && !startsWith redirect "//" then
            (requestOrigin headers).map (·, safeReturnPath redirect)
          else (requestOrigin headers).map (·, "/")

-- `HeaderValue::from_str`. The bytes of a character beyond ASCII are all valid.
def headerValue (text : String) : Option String :=
  if text.toList.all fun char => (32 ≤ char.toNat ∧ char.toNat ≠ 127) ∨ char = '\t' then some text
  else none

-- The header that `oauth_callback` sends after the login.
def location (returnTo : String) : Except ApiError String :=
  match headerValue returnTo with
  | some value => .ok value
  | none => .error (.internal "invalid OAuth return path")

-- A browser reads two slashes, or a slash and a backslash, as the start of a host.
def SameSite (returnTo : String) : Prop :=
  ∃ rest, returnTo.toList = '/' :: rest ∧ rest.head? ≠ some '/' ∧ rest.head? ≠ some '\\' ∧
    ∀ char ∈ returnTo.toList, isControl char = false

-- The header is the return path as it is, and the browser stays on the site.
def StaysOnSite (returnTo : String) : Prop := location returnTo = .ok returnTo ∧ SameSite returnTo

-- What the url crate promises of an http or https URL.
def PathWellFormed (url : Url) : Prop :=
  url.scheme = "http" ∨ url.scheme = "https" → ∃ rest, url.path.toList = '/' :: rest ∧
    '\\' ∉ url.path.toList

section Paths

theorem startsWith_slash_iff {text : String} :
    startsWith text "/" = true ↔ ∃ rest, text.toList = '/' :: rest := by
  rw [startsWith_iff]
  constructor
  · rintro ⟨rest, hrest⟩
    exact ⟨rest, hrest.symm⟩
  · rintro ⟨rest, hrest⟩
    exact ⟨rest, hrest.symm⟩

-- The second character of a text that starts with a slash.
theorem startsWith_second_iff {text : String} {rest : List Char} (h : text.toList = '/' :: rest)
    (second : Char) :
    startsWith text (String.ofList ['/', second]) = true ↔ rest.head? = some second := by
  rw [startsWith_iff, h, String.toList_ofList, List.cons_prefix_cons]
  cases rest with
  | nil => simp
  | cons first rest => simp [eq_comm]

theorem safeReturnPath_cases (path : String) :
    safeReturnPath path = "/" ∨
      safeReturnPath path = path ∧ startsWith path "/" = true ∧ startsWith path "//" = false ∧
        ∀ char ∈ path.toList, isControl char = false := by
  unfold safeReturnPath
  by_cases h : (startsWith path "/" && !startsWith path "//" && !path.toList.any isControl) = true
  · right
    rw [if_pos h]
    simpa [and_assoc] using h
  · left
    rw [if_neg h]

-- Without control characters the header is the path.
theorem location_eq {returnTo : String} (h : ∀ char ∈ returnTo.toList, isControl char = false) :
    location returnTo = .ok returnTo := by
  have hvalid : (returnTo.toList.all fun char => (32 ≤ char.toNat ∧ char.toNat ≠ 127) ∨
      char = '\t') = true := by
    rw [List.all_eq_true]
    intro char hchar
    have hcontrol := h char hchar
    simp only [isControl, Bool.or_eq_false_iff, Bool.and_eq_false_iff,
      decide_eq_false_iff_not] at hcontrol
    rw [decide_eq_true_eq]
    left
    omega
  rw [location, headerValue, if_pos hvalid]

theorem staysOnSite_iff {returnTo : String} : StaysOnSite returnTo ↔ SameSite returnTo := by
  constructor
  · exact And.right
  · intro hsite
    refine ⟨?_, hsite⟩
    obtain ⟨_, -, -, -, hcontrol⟩ := hsite
    exact location_eq hcontrol

theorem sameSite_root : SameSite "/" := by
  refine ⟨[], rfl, by simp, by simp, ?_⟩
  intro char hchar
  obtain rfl : char = '/' := by simpa using hchar
  rfl

theorem sameSite_safeReturnPath {path : String} {rest : List Char} (h : path.toList = '/' :: rest)
    (hback : rest.head? ≠ some '\\') : SameSite (safeReturnPath path) := by
  rcases safeReturnPath_cases path with hroot | ⟨hpath, -, hslashes, hcontrol⟩
  · rw [hroot]
    exact sameSite_root
  · rw [hpath]
    refine ⟨rest, h, ?_, hback, hcontrol⟩
    intro hhead
    have hstarts := (startsWith_second_iff h '/').mpr hhead
    rw [hslashes] at hstarts
    cases hstarts

-- The raw route: the check lets a backslash through in second place.
theorem sameSite_raw_iff {path : String} (hslash : startsWith path "/" = true)
    (hslashes : startsWith path "//" = false) :
    SameSite (safeReturnPath path) ↔
      (startsWith path "/\\" = true → ∃ char ∈ path.toList, isControl char = true) := by
  obtain ⟨rest, hrest⟩ := startsWith_slash_iff.mp hslash
  have hback := startsWith_second_iff hrest '\\'
  constructor
  · intro hsite hstarts
    by_contra hnone
    have hclean : path.toList.any isControl = false := by
      rw [Bool.eq_false_iff, ne_eq, List.any_eq_true]
      exact hnone
    have hpath : safeReturnPath path = path := by
      rw [safeReturnPath, hslash, hslashes, hclean]
      rfl
    obtain ⟨rest', hrest', -, hne, -⟩ := hsite
    rw [hpath, hrest] at hrest'
    cases hrest'
    exact hne (hback.mp hstarts)
  · intro hcontrol
    by_cases hhead : rest.head? = some '\\'
    · have hroot : safeReturnPath path = "/" := by
        rcases safeReturnPath_cases path with hroot | ⟨-, -, -, hclean⟩
        · exact hroot
        · obtain ⟨char, hmem, hchar⟩ := hcontrol (hback.mpr hhead)
          rw [hclean char hmem] at hchar
          cases hchar
      rw [hroot]
      exact sameSite_root
    · exact sameSite_safeReturnPath hrest hhead

-- The route of an absolute URL: the url crate keeps backslashes out of the path, and
-- what follows a path of one slash is a question mark or a hash.
theorem sameSite_returnPath {url : Url} {rest : List Char} (h : url.path.toList = '/' :: rest)
    (hback : '\\' ∉ url.path.toList) : SameSite (safeReturnPath (returnPath url)) := by
  have hlist : (returnPath url).toList =
      '/' :: (rest ++ (((url.query.map ("?" ++ ·)).getD "").toList ++
        ((url.fragment.map ("#" ++ ·)).getD "").toList)) := by
    simp [returnPath, String.toList_append, h]
  apply sameSite_safeReturnPath hlist
  cases rest with
  | nil =>
      cases url.query with
      | some query => simp [String.toList_append]
      | none =>
          cases url.fragment with
          | some fragment => simp [String.toList_append]
          | none => simp
  | cons first rest =>
      intro hhead
      simp only [List.cons_append, List.head?_cons, Option.some.injEq] at hhead
      exact hback (by simp [h, hhead])

end Paths

section Resolved

theorem map_ok {α β : Type} {result : Except ApiError α} {f : α → β} {value : β}
    (h : result.map f = .ok value) :
    ∃ a, result = .ok a ∧ f a = value := by
  cases result with
  | error error => cases h
  | ok a => exact ⟨a, rfl, by simpa [Except.map] using h⟩

theorem http_of_urlOrigin {url : Url} {origin : String} (h : urlOrigin url = .ok origin) :
    url.scheme = "http" ∨ url.scheme = "https" := by
  by_contra hnot
  rw [not_or] at hnot
  rw [urlOrigin, if_pos (by simp [hnot.1, hnot.2])] at h
  cases h

-- A text that starts with a slash and a backslash passes the checks of the raw route.
theorem raw_of_backslash {text : String} (h : startsWith text "/\\" = true) :
    startsWith text "/" = true ∧ startsWith text "//" = false := by
  obtain ⟨rest, hrest⟩ := startsWith_iff.mp h
  have hlist : text.toList = '/' :: '\\' :: rest := hrest.symm
  refine ⟨startsWith_slash_iff.mpr ⟨_, hlist⟩, ?_⟩
  rw [Bool.eq_false_iff, ne_eq]
  intro hslashes
  have hhead := (startsWith_second_iff hlist '/').mp hslashes
  simp at hhead

-- The login leads back to the site exactly when the parameter is not a text of the raw
-- route that starts with a slash and a backslash and is free of control characters.
theorem redirect_stays_on_site_iff (parse : String → Option Url)
    (hparse : ∀ text url, parse text = some url → PathWellFormed url) (headers : HeaderMap)
    (redirect : Option String) (origin returnTo : String)
    (h : resolveAppOriginAndReturnTo parse headers redirect = .ok (origin, returnTo)) :
    StaysOnSite returnTo ↔
      ∀ text, redirect = some text → parse text = none → startsWith text "/\\" = true →
        ∃ char ∈ text.toList, isControl char = true := by
  rw [staysOnSite_iff]
  unfold resolveAppOriginAndReturnTo at h
  cases redirect with
  | none =>
      obtain ⟨_, -, heq⟩ := map_ok h
      cases heq
      simp [sameSite_root]
  | some redirect =>
      simp only [Option.some.injEq, forall_eq']
      cases hurl : parse redirect with
      | some url =>
          simp only [hurl] at h
          obtain ⟨_, horigin, heq⟩ := map_ok h
          cases heq
          obtain ⟨rest, hrest, hback⟩ := hparse redirect url hurl (http_of_urlOrigin horigin)
          simp [sameSite_returnPath hrest hback]
      | none =>
          simp only [hurl, true_imp_iff] at h ⊢
          by_cases hraw : (startsWith redirect "/" && !startsWith redirect "//") = true
          · rw [if_pos hraw] at h
            obtain ⟨_, -, heq⟩ := map_ok h
            cases heq
            rw [Bool.and_eq_true, Bool.not_eq_true'] at hraw
            exact sameSite_raw_iff hraw.1 hraw.2
          · rw [if_neg hraw] at h
            obtain ⟨_, -, heq⟩ := map_ok h
            cases heq
            refine iff_of_true sameSite_root ?_
            intro hstarts
            obtain ⟨hslash, hslashes⟩ := raw_of_backslash hstarts
            simp [hslash, hslashes] at hraw

end Resolved

section Demo

-- The url crate on the texts below: a text without a scheme has no base to start from.
def demoParse (text : String) : Option Url :=
  if text = "http://localhost:3000/devices?status=Online#row-1" then
    some ⟨"http", some "localhost", some 3000, "/devices", some "status=Online", some "row-1"⟩
  else none

theorem demoParse_wellFormed (text : String) (url : Url) (h : demoParse text = some url) :
    PathWellFormed url := by
  unfold demoParse at h
  split at h
  · cases h
    exact fun _ => ⟨_, rfl, by decide⟩
  · cases h

def demoHeaders : HeaderMap := [("host", "localhost:8080".toUTF8.toList)]

theorem devices_stays_on_site : StaysOnSite "/devices?status=Online#row-1" := by
  apply (redirect_stays_on_site_iff demoParse demoParse_wellFormed []
    (some "http://localhost:3000/devices?status=Online#row-1") "http://localhost:3000"
      _ (by decide +kernel)).mpr
  intro text htext hnone
  cases htext
  exact absurd hnone (by decide +kernel)

theorem backslash_leaves_site :
    demoParse "/\\evil.example" = none ∧
      resolveAppOriginAndReturnTo demoParse demoHeaders (some "/\\evil.example") =
        .ok ("http://localhost:8080", "/\\evil.example") ∧
      ¬StaysOnSite "/\\evil.example" := by
  refine ⟨by decide +kernel, by decide +kernel, ?_⟩
  intro hsite
  obtain ⟨-, rest, hrest, -, hback, -⟩ := hsite
  cases hrest
  exact hback rfl

end Demo

end RmqttThings.Access
