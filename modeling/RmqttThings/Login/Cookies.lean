import RmqttThings.Access.Redirects
import RmqttThings.Commands.Replies
import RmqttThings.Encoding.Base64
import RmqttThings.Encoding.FormUrlencoded
import RmqttThings.Text

namespace RmqttThings.Login

open Access (HeaderMap toStr)
open Encoding (utf8EncodeChar_ascii)
open Commands (splitOnce splitOnce_append parseI64 parseI64_toString)

-- `str::split` at a character.
def split (separator : Char) (text : String) : List String :=
  (text.toList.splitOn separator).map String.ofList

def buildCookie (name value : String) (maxAgeSeconds : Int64) : String :=
  name ++ "=" ++ value ++ "; Path=/; Max-Age=" ++ toString maxAgeSeconds.toInt ++
    "; HttpOnly; SameSite=Lax"

def clearCookie (name : String) : String := name ++ "=; Path=/; Max-Age=0; HttpOnly; SameSite=Lax"

-- The value in one piece of the header, if it is the cookie's and not empty.
def pickValue (name cookie : String) : Option String :=
  (splitOnce '=' (trim cookie)).bind fun (cookieName, value) =>
    if cookieName = name ∧ value ≠ "" then some value else none

def getCookie (headers : HeaderMap) (name : String) : Option String :=
  ((headers.lookup "cookie").bind toStr).bind fun cookies => (split ';' cookies).findSome?
    (pickValue name)

-- The cookies of the site that a browser holds.
abbrev Jar := List (String × String)

def pairText (cookie : String × String) : String := cookie.1 ++ "=" ++ cookie.2

-- The last `Max-Age` that is a number.
def maxAge (attributes : List String) : Option Int :=
  attributes.reverse.findSome? fun text =>
    (splitOnce '=' text).bind fun (name, value) =>
      if (trim name).toLower = "max-age" then parseI64 (trim value) else none

namespace Jar

-- What a browser sends with a request to the site.
def requestHeaders (jar : Jar) : HeaderMap :=
  if jar.isEmpty then [] else [("cookie", utf8Bytes ("; ".intercalate (jar.map pairText)))]

-- What a browser does with a `Set-Cookie` header: a cookie that has expired is dropped.
def store (jar : Jar) (header : String) : Jar :=
  match split ';' header with
  | [] => jar
  | pair :: attributes =>
      match splitOnce '=' pair with
      | none => jar
      | some (name, value) =>
          let rest := jar.filter (·.1 ≠ trim name)
          if (maxAge attributes).any (· ≤ 0) then rest else rest ++ [(trim name, trim value)]

-- The value that the handlers read: an empty one counts as none.
def value (jar : Jar) (name : String) : Option String :=
  jar.findSome? fun cookie => if cookie.1 = name ∧ cookie.2 ≠ "" then some cookie.2 else none

def remove (jar : Jar) (name : String) : Jar := jar.filter (·.1 ≠ name)

def set (jar : Jar) (name value : String) : Jar := jar.remove name ++ [(name, value)]

end Jar

-- Text that stays one value of a `Cookie` and of a `Set-Cookie` header.
def CookieText (text : String) : Prop := ∀ char ∈ text.toList, isVisible char = true ∧ char ≠ ';'

def CookieName (name : String) : Prop := CookieText name ∧ '=' ∉ name.toList

instance (text : String) : Decidable (CookieText text) :=
  decidable_of_iff (text.toList.all fun char => isVisible char && char != ';')
    (by simp [CookieText])

instance (name : String) : Decidable (CookieName name) := inferInstanceAs (Decidable (_ ∧ _))

def Jar.Plain (jar : Jar) : Prop := ∀ cookie ∈ jar, CookieName cookie.1 ∧ CookieText cookie.2

section Values

variable {jar : Jar} {name other value : String}

theorem value_remove_self : (jar.remove name).value name = none := by
  rw [Jar.value, List.findSome?_eq_none_iff]
  intro cookie hmem
  have hne : cookie.1 ≠ name := by simpa using (List.mem_filter.mp hmem).2
  rw [if_neg fun h => hne h.1]

theorem value_remove_ne (h : other ≠ name) : (jar.remove name).value other = jar.value other := by
  induction jar with
  | nil => rfl
  | cons cookie jar ih =>
      by_cases hname : cookie.1 = name
      · have hdropped : Jar.remove (cookie :: jar) name = Jar.remove jar name := by
          simp [Jar.remove, hname]
        have hother : cookie.1 ≠ other := fun he => h (he.symm.trans hname)
        rw [hdropped, ih]
        simp [Jar.value, hother]
      · have hkept : Jar.remove (cookie :: jar) name = cookie :: Jar.remove jar name := by
          simp [Jar.remove, hname]
        rw [hkept]
        simp only [Jar.value, List.findSome?_cons] at ih ⊢
        rw [ih]

theorem value_set_self (h : value ≠ "") : (jar.set name value).value name = some value := by
  have hremoved : (jar.remove name).findSome? (fun cookie => if cookie.1 = name ∧ cookie.2 ≠
      "" then some cookie.2 else none) =
      none := value_remove_self
  rw [Jar.value, Jar.set, List.findSome?_append, hremoved]
  simp [h]

theorem value_set_ne (h : other ≠ name) : (jar.set name value).value other = jar.value other := by
  have hkept : (jar.remove name).value other = jar.value other := value_remove_ne h
  rw [Jar.value, Jar.value] at hkept
  rw [Jar.value, Jar.value, Jar.set, List.findSome?_append, hkept]
  simp [Ne.symm h]

theorem plain_remove (h : jar.Plain) : (jar.remove name).Plain :=
  fun cookie hmem => h cookie (List.mem_of_mem_filter hmem)

theorem plain_set (h : jar.Plain) (hname : CookieName name) (hvalue : CookieText value) :
    (jar.set name value).Plain := by
  intro cookie hmem
  rcases List.mem_append.mp hmem with hold | hnew
  · exact plain_remove h cookie hold
  · rw [List.mem_singleton.mp hnew]
    exact ⟨hname, hvalue⟩

end Values

section Headers

-- A header of printable characters is read as it was written.
theorem toStr_utf8Bytes {text : String} (h : ∀ char ∈ text.toList, 32 ≤ char.toNat ∧
    char.toNat < 127) :
    toStr (utf8Bytes text) = some text := by
  have hbyte : ∀ char ∈ text.toList, String.utf8EncodeChar char = [UInt8.ofNat char.toNat] := by
    intro char hmem
    have hlt := (h char hmem).2
    exact utf8EncodeChar_ascii (by omega)
  have hbytes : utf8Bytes text = text.toList.map fun char => UInt8.ofNat char.toNat := by
    rw [utf8Bytes_eq_flatMap, List.flatMap_congr hbyte, List.map_eq_flatMap]
  have hnat : ∀ char ∈ text.toList, (UInt8.ofNat char.toNat).toNat = char.toNat := by
    intro char hmem
    have hlt := (h char hmem).2
    rw [UInt8.toNat_ofNat']
    omega
  have hall : (utf8Bytes text).all (fun byte => (32 ≤ byte.toNat ∧ byte.toNat < 127) ∨ byte.toNat =
      9) = true := by
    rw [hbytes, List.all_map, List.all_eq_true]
    intro char hmem
    rw [Function.comp_apply, hnat char hmem, decide_eq_true_eq]
    exact .inl (h char hmem)
  have hback : (utf8Bytes text).map (fun byte => Char.ofNat byte.toNat) = text.toList := by
    rw [hbytes, List.map_map]
    have hid : text.toList.map ((fun byte : UInt8 => Char.ofNat byte.toNat) ∘ fun char =>
        UInt8.ofNat char.toNat) =
        text.toList.map id := by
      apply List.map_congr_left
      intro char hmem
      rw [Function.comp_apply, hnat char hmem, Char.ofNat_toNat, id]
    rw [hid, List.map_id]
  rw [toStr, if_pos hall, hback, String.ofList_toList]

theorem split_intercalate {separator : Char} {parts : List (List Char)}
    (h : ∀ part ∈ parts, separator ∉ part)
    (hne : parts ≠ []) : split separator (String.ofList ([separator].intercalate parts)) =
    parts.map String.ofList := by
  rw [split, String.toList_ofList, List.splitOn_intercalate separator h hne]

theorem trim_cookieText {text : String} (h : CookieText text) : trim text = text := by
  have htrim := trim_spaces (fun char hmem => (h char hmem).1) 0
  rwa [List.replicate_zero, List.nil_append, String.ofList_toList] at htrim

theorem notMem_cookieText {text : String} (h : CookieText text) : ';' ∉ text.toList :=
  fun hmem => (h _ hmem).2 rfl

theorem cookieText_int (value : Int) : CookieText (toString value) := by
  have hdigit : ∀ n : Nat, ∀ char ∈ Nat.toDigits 10 n, isVisible char = true ∧ char ≠ ';' := by
    intro n char hmem
    have hisDigit := Nat.isDigit_of_mem_toDigits (by decide) (by decide) hmem
    simp only [Char.isDigit, Bool.and_eq_true, decide_eq_true_eq,
      UInt32.le_iff_toNat_le] at hisDigit
    obtain ⟨hlow, hhigh⟩ := hisDigit
    have hnat : 48 ≤ char.toNat ∧ char.toNat ≤ 57 := ⟨hlow, hhigh⟩
    constructor
    · simp only [isVisible, Bool.and_eq_true, decide_eq_true_eq]
      omega
    · rintro rfl
      exact absurd hnat (by decide)
  intro char hmem
  rw [RuleEngine.toList_toString_int] at hmem
  split_ifs at hmem
  · exact hdigit _ char hmem
  · rcases List.mem_cons.mp hmem with rfl | hmem
    · decide
    · exact hdigit _ char hmem

theorem maxAge_attributes {number : String} {age : Int} (htext : CookieText number)
    (h : parseI64 number = some age) :
    maxAge [" Path=/", " Max-Age=" ++ number, " HttpOnly", " SameSite=Lax"] = some age := by
  have hsame : splitOnce '=' " SameSite=Lax" = some (" SameSite", "Lax") := by decide +kernel
  have hhttp : splitOnce '=' " HttpOnly" = none := by decide +kernel
  have hage : splitOnce '=' (" Max-Age=" ++ number) = some (" Max-Age", number) := by
    have hlist : " Max-Age=" ++ number = String.ofList (" Max-Age".toList ++ '=' ::
        number.toList) := by
      simp [← String.toList_inj]
    rw [hlist, splitOnce_append (by decide), String.ofList_toList, String.ofList_toList]
  have hother : (trim " SameSite").toLower ≠ "max-age" := by decide +kernel
  have hname : (trim " Max-Age").toLower = "max-age" := by decide +kernel
  simp [maxAge, hsame, hhttp, hage, hother, hname, trim_cookieText htext, h]

-- What a browser makes of the cookies that the handlers build.
theorem store_buildCookie {jar : Jar} {name value : String} (hname : CookieName name)
    (hvalue : CookieText value) (age : Int64) : jar.store (buildCookie name value age) =
      if age.toInt ≤ 0 then jar.remove name else jar.set name value := by
  have hparse : parseI64 (toString age.toInt) = some age.toInt :=
    parseI64_toString age.le_toInt age.toInt_lt
  have htext := cookieText_int age.toInt
  unfold buildCookie
  generalize toString age.toInt = number at hparse htext ⊢
  have hheader : name ++ "=" ++ value ++ "; Path=/; Max-Age=" ++ number ++
      "; HttpOnly; SameSite=Lax" =
      String.ofList ([';'].intercalate [name.toList ++ '=' :: value.toList, " Path=/".toList,
        (" Max-Age=" ++ number).toList, " HttpOnly".toList, " SameSite=Lax".toList]) := by
    simp [← String.toList_inj, List.intercalate_cons_cons]
  have hnone : ∀ part ∈ [name.toList ++ '=' :: value.toList, " Path=/".toList,
      (" Max-Age=" ++ number).toList, " HttpOnly".toList, " SameSite=Lax".toList], ';' ∉ part := by
    simp [notMem_cookieText hname.1, notMem_cookieText hvalue, notMem_cookieText htext]
  have hpair : splitOnce '=' (String.ofList (name.toList ++ '=' :: value.toList)) = some (name,
      value) := by
    rw [splitOnce_append hname.2, String.ofList_toList, String.ofList_toList]
  rw [Jar.store, hheader, split_intercalate hnone (by simp)]
  simp only [List.map_cons, List.map_nil, hpair, String.ofList_toList,
    maxAge_attributes htext hparse,
    trim_cookieText hname.1, trim_cookieText hvalue, Option.any_some, decide_eq_true_eq]
  rfl

theorem store_clearCookie {jar : Jar} {name : String} (hname : CookieName name) :
    jar.store (clearCookie name) = jar.remove name := by
  have hzero : toString (0 : Int64).toInt = "0" := by decide
  have hheader : clearCookie name = buildCookie name "" 0 := by
    rw [clearCookie, buildCookie, hzero]
    simp [← String.toList_inj]
  rw [hheader, store_buildCookie hname (by decide)]
  exact if_pos (by decide)

-- Every cookie but the first one is sent with a space before it.
theorem intercalate_cookies (first : List Char) (rest : List (List Char)) :
    [';', ' '].intercalate (first :: rest) = [';'].intercalate (first :: rest.map (' ' :: ·)) := by
  induction rest generalizing first with
  | nil => rfl
  | cons next rest ih =>
      rw [List.intercalate_cons_cons, ih, List.map_cons, List.intercalate_cons_cons]
      cases rest <;> simp [List.intercalate_cons_cons]

theorem toList_pairText (cookie : String × String) :
    (pairText cookie).toList = cookie.1.toList ++ '=' :: cookie.2.toList := by
  simp [pairText]

theorem mem_intercalate {separator : List Char} {parts : List (List Char)} {char : Char}
    (h : char ∈ separator.intercalate parts) : char ∈ separator ∨ ∃ part ∈ parts, char ∈ part := by
  induction parts with
  | nil => cases h
  | cons part parts ih =>
      by_cases hparts : parts = []
      · rw [hparts, List.intercalate_singleton] at h
        exact .inr ⟨part, List.mem_cons_self, h⟩
      · rw [List.intercalate_cons_of_ne_nil hparts, List.append_assoc, List.mem_append,
          List.mem_append] at h
        rcases h with hpart | hseparator | hrest
        · exact .inr ⟨part, List.mem_cons_self, hpart⟩
        · exact .inl hseparator
        · rcases ih hrest with hseparator | ⟨other, hmem, hchar⟩
          · exact .inl hseparator
          · exact .inr ⟨other, List.mem_cons_of_mem _ hmem, hchar⟩

theorem mem_pairText {cookie : String × String} (h : CookieName cookie.1 ∧ CookieText cookie.2)
    {char : Char}
    (hmem : char ∈ (pairText cookie).toList) : isVisible char = true ∧ char ≠ ';' := by
  rw [toList_pairText, List.mem_append, List.mem_cons] at hmem
  rcases hmem with hmem | rfl | hmem
  · exact h.1.1 char hmem
  · decide
  · exact h.2 char hmem

theorem pickValue_pairText {cookie : String × String}
    (h : CookieName cookie.1 ∧ CookieText cookie.2) (name : String) (count : Nat) : pickValue name
    (String.ofList (List.replicate count ' ' ++ (pairText cookie).toList)) =
      if cookie.1 = name ∧ cookie.2 ≠ "" then some cookie.2 else none := by
  rw [pickValue, trim_spaces (fun char hmem => (mem_pairText h hmem).1), toList_pairText,
    splitOnce_append h.1.2, String.ofList_toList, String.ofList_toList, Option.bind_some]

-- The pieces of the header that a browser sends.
theorem split_cookies {cookie : String × String} {jar : Jar} (h : Jar.Plain (cookie :: jar)) :
    split ';' ("; ".intercalate ((cookie :: jar).map pairText)) =
      pairText cookie :: jar.map fun other =>
        String.ofList (List.replicate 1 ' ' ++ (pairText other).toList) := by
  have htext : "; ".intercalate ((cookie :: jar).map pairText) = String.ofList ([';'].intercalate
      ((pairText cookie).toList :: jar.map fun other => ' ' :: (pairText other).toList)) := by
    rw [← String.toList_inj, String.toList_intercalate, List.map_cons, List.map_cons]
    refine (intercalate_cookies _ _).trans ?_
    rw [List.map_map, List.map_map, String.toList_ofList]
    rfl
  have hnone : ∀ part ∈ (pairText cookie).toList :: jar.map fun other =>
      ' ' :: (pairText other).toList,
      ';' ∉ part := by
    intro part hmem hchar
    rcases List.mem_cons.mp hmem with rfl | hrest
    · exact (mem_pairText (h cookie List.mem_cons_self) hchar).2 rfl
    · obtain ⟨other, hother, rfl⟩ := List.mem_map.mp hrest
      rcases List.mem_cons.mp hchar with hspace | hchar
      · cases hspace
      · exact (mem_pairText (h other (List.mem_cons_of_mem _ hother)) hchar).2 rfl
  rw [htext, split_intercalate hnone (by simp), List.map_cons, List.map_map, String.ofList_toList]
  rfl

theorem printable_cookies {jar : Jar} (h : jar.Plain) :
    ∀ char ∈ ("; ".intercalate (jar.map pairText)).toList, 32 ≤ char.toNat ∧ char.toNat < 127 := by
  intro char hmem
  rw [String.toList_intercalate] at hmem
  rcases mem_intercalate hmem with hseparator | ⟨part, hpart, hchar⟩
  · have hall : ([';', ' '].all fun char => decide (32 ≤ char.toNat ∧ char.toNat < 127)) =
        true := by decide
    simpa using List.all_eq_true.mp hall char hseparator
  · obtain ⟨text, hmap, rfl⟩ := List.mem_map.mp hpart
    obtain ⟨other, hother, rfl⟩ := List.mem_map.mp hmap
    have hvisible := (mem_pairText (h other hother) hchar).1
    simp only [isVisible, Bool.and_eq_true, decide_eq_true_eq] at hvisible
    omega

-- The round trip: the handlers read the cookies that the browser holds.
theorem getCookie_requestHeaders {jar : Jar} (h : jar.Plain) (name : String) :
    getCookie jar.requestHeaders name = jar.value name := by
  cases jar with
  | nil => rfl
  | cons cookie jar =>
      have hheaders : Jar.requestHeaders (cookie :: jar) =
          [("cookie", utf8Bytes ("; ".intercalate ((cookie :: jar).map pairText)))] := rfl
      have hfirst := pickValue_pairText (h cookie List.mem_cons_self) name 0
      have hrest : jar.findSome? (pickValue name ∘ fun other =>
          String.ofList (List.replicate 1 ' ' ++
          (pairText other).toList)) = Jar.value jar name := by
        unfold Jar.value
        apply findSome?_congr
        intro other hother
        rw [Function.comp_apply]
        exact pickValue_pairText (h other (List.mem_cons_of_mem _ hother)) name 1
      rw [List.replicate_zero, List.nil_append, String.ofList_toList] at hfirst
      rw [getCookie, hheaders, List.lookup_cons_self, Option.bind_some,
        toStr_utf8Bytes (printable_cookies h),
        Option.bind_some, split_cookies h, List.findSome?_cons, hfirst, List.findSome?_map, hrest]
      rfl

end Headers

end RmqttThings.Login
