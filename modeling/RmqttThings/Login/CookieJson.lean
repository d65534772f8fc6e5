import RmqttThings.Encoding.JsonString
import RmqttThings.Login.Handlers

namespace RmqttThings.Login

open Encoding

namespace OAuthCookie

-- The members in the order of the fields, with what stands before each of them.
def members (cookie : OAuthCookie) : List (String × String) :=
  [("\x7b\"state\":", cookie.state), (",\"code_verifier\":", cookie.codeVerifier),
    (",\"return_to\":", cookie.returnTo), (",\"redirect_uri\":", cookie.redirectUri)]

def memberText (entry : String × String) : List Char :=
  entry.1.toList ++ JsonString.quote entry.2.toList

def json (cookie : OAuthCookie) : List Char := cookie.members.flatMap memberText ++ ['}']

def readMember (before : String) (text : List Char) : Option (String × List Char) :=
  if before.toList.isPrefixOf text then
    (JsonString.read (text.drop before.toList.length)).map fun (chars, rest) =>
      (String.ofList chars, rest)
  else none

-- What `json` writes, and nothing else.
def readJson (text : List Char) : Option OAuthCookie := do
  let (state, text) ← readMember "\x7b\"state\":" text
  let (codeVerifier, text) ← readMember ",\"code_verifier\":" text
  let (returnTo, text) ← readMember ",\"return_to\":" text
  let (redirectUri, text) ← readMember ",\"redirect_uri\":" text
  if text = ['}'] then some ⟨state, codeVerifier, returnTo, redirectUri⟩ else none

theorem readMember_memberText (before value : String) (rest : List Char) :
    readMember before (memberText (before, value) ++ rest) = some (value, rest) := by
  have hprefix : before.toList.isPrefixOf (memberText (before, value) ++ rest) = true := by
    rw [List.isPrefixOf_iff_prefix, memberText, List.append_assoc]
    exact List.prefix_append _ _
  have hdrop : (memberText (before, value) ++ rest).drop before.toList.length =
      JsonString.quote value.toList ++ rest := by
    rw [memberText, List.append_assoc, List.drop_left]
  rw [readMember, if_pos hprefix, hdrop, JsonString.read_quote]
  simp only [Option.map_some, String.ofList_toList]

theorem readJson_json (cookie : OAuthCookie) : readJson cookie.json = some cookie := by
  have hjson : cookie.json = memberText ("\x7b\"state\":", cookie.state) ++
      (memberText (",\"code_verifier\":",
      cookie.codeVerifier) ++ (memberText (",\"return_to\":", cookie.returnTo) ++
      (memberText (",\"redirect_uri\":", cookie.redirectUri) ++ ['}']))) := by
    simp [json, members]
  rw [readJson, hjson]
  simp only [readMember_memberText, Option.bind_eq_bind, Option.bind_some, if_true]

end OAuthCookie

-- `std::str::from_utf8`.
def fromUtf8 (bytes : List UInt8) : Option String := String.fromUTF8? ⟨bytes.toArray⟩

theorem fromUtf8_utf8Bytes (text : String) : fromUtf8 (utf8Bytes text) = some text := by
  have hbytes : (⟨(utf8Bytes text).toArray⟩ : ByteArray) = text.toByteArray := by
    rw [utf8Bytes, Array.toArray_toList, String.toUTF8_eq_toByteArray]
  rw [fromUtf8, hbytes, String.fromUTF8?, dif_pos text.isValidUTF8, Option.some.injEq,
    ← String.toByteArray_inj]
  rfl

-- The texts that the server writes, which serde_json reads back.
def compactCodec : OAuthCodec where
  toString cookie := String.ofList cookie.json
  fromSlice bytes := (fromUtf8 bytes).bind fun text => OAuthCookie.readJson text.toList
  toString_ne cookie hempty := by
    have hnil : cookie.json = [] := String.ofList_injective hempty
    simp [OAuthCookie.json] at hnil
  fromSlice_toString cookie := by
    rw [fromUtf8_utf8Bytes, Option.bind_some, String.toList_ofList, OAuthCookie.readJson_json]

end RmqttThings.Login
