import Mathlib.Data.List.TakeWhile

namespace Encoding

abbrev Bytes := List UInt8

-- The bytes that `application/x-www-form-urlencoded` leaves as they are.
def isPlain (char : Char) : Bool :=
  ('0' ≤ char && char ≤ '9') || ('A' ≤ char && char ≤ 'Z') || ('a' ≤ char && char ≤ 'z') ||
    "*-._".toList.contains char

def hexDigit (value : Nat) :
    Char := if value < 10 then Char.ofNat (48 + value) else Char.ofNat (55 + value)

def hexValue (char : Char) : Option Nat :=
  if '0' ≤ char ∧ char ≤ '9' then some (char.toNat - 48)
  else if 'A' ≤ char ∧ char ≤ 'F' then some (char.toNat - 55)
  else if 'a' ≤ char ∧ char ≤ 'f' then some (char.toNat - 87)
  else none

def escapeByte (byte : UInt8) : List Char :=
  if isPlain (Char.ofNat byte.toNat) then [Char.ofNat byte.toNat]
  else if byte = 32 then ['+']
  else ['%', hexDigit (byte.toNat / 16), hexDigit (byte.toNat % 16)]

def escape (bytes : Bytes) : List Char := bytes.flatMap escapeByte

-- A percent sign without two digits behind it stands for itself.
def unescape : List Char → Bytes
  | [] => []
  | '%' :: high :: low :: rest =>
      match hexValue high, hexValue low with
      | some h, some l => .ofNat (h * 16 + l) :: unescape rest
      | _, _ => 37 :: unescape (high :: low :: rest)
  | '+' :: rest => 32 :: unescape rest
  | char :: rest => String.utf8EncodeChar char ++ unescape rest

def serializePair (pair : Bytes × Bytes) : List Char := escape pair.1 ++ '=' :: escape pair.2

def serialize (pairs : List (Bytes × Bytes)) : List Char :=
  ['&'].intercalate (pairs.map serializePair)

-- Everything behind the first `=` is the value.
def parsePair (text : List Char) : Bytes × Bytes :=
  (unescape (text.takeWhile (· ≠ '=')), unescape ((text.dropWhile (· ≠ '=')).drop 1))

def parse (text : List Char) : List (Bytes × Bytes) :=
  ((text.splitOn '&').filter fun part => !part.isEmpty).map parsePair

section Bytes

-- What a plain character is not, and how it is read.
theorem unescape_plain {char : Char} (h : isPlain char = true) (rest : List Char) :
    unescape (char :: rest) = String.utf8EncodeChar char ++ unescape rest := by
  have hpercent : char ≠ '%' := by
    rintro rfl
    exact absurd h (by decide)
  have hplus : char ≠ '+' := by
    rintro rfl
    exact absurd h (by decide)
  rw [unescape]
  · rintro _ _ _ rfl
    exact absurd rfl hpercent
  · rintro rfl
    exact absurd rfl hplus

theorem hexValue_hexDigit : ∀ value < 16, hexValue (hexDigit value) = some value := by decide

theorem toNat_ofNat_ascii {byte : Nat} (h : byte < 128) : (Char.ofNat byte).toNat = byte := by
  have hall : ∀ byte : Fin 128, (Char.ofNat byte).toNat = byte := by decide
  exact hall ⟨byte, h⟩

theorem utf8EncodeChar_ascii {char : Char} (h : char.toNat < 128) :
    String.utf8EncodeChar char = [UInt8.ofNat char.toNat] := by
  have hall : ∀ byte : Fin 128, String.utf8EncodeChar (Char.ofNat byte) = [UInt8.ofNat byte] := by
    decide +kernel
  have hchar := hall ⟨char.toNat, h⟩
  rwa [Char.ofNat_toNat] at hchar

theorem isPlain_lt : ∀ byte : Fin 256, isPlain (Char.ofNat byte) = true → byte.val < 128 := by
  decide +kernel

-- The escape of a byte is read as the byte, whatever comes after it.
theorem unescape_escapeByte (byte : UInt8) (rest : List Char) :
    unescape (escapeByte byte ++ rest) = byte :: unescape rest := by
  have hbyte := byte.toNat_lt
  unfold escapeByte
  by_cases hplain : isPlain (Char.ofNat byte.toNat) = true
  · have hlt : byte.toNat < 128 := isPlain_lt ⟨byte.toNat, hbyte⟩ hplain
    have hchar : (Char.ofNat byte.toNat).toNat = byte.toNat := toNat_ofNat_ascii hlt
    rw [if_pos hplain, List.singleton_append, unescape_plain hplain,
      utf8EncodeChar_ascii (by omega), hchar, UInt8.ofNat_toNat]
    rfl
  · rw [if_neg hplain]
    by_cases hspace : byte = 32
    · rw [if_pos hspace, hspace]
      rfl
    · rw [if_neg hspace]
      have hhigh := hexValue_hexDigit (byte.toNat / 16) (by omega)
      have hlow := hexValue_hexDigit (byte.toNat % 16) (by omega)
      have hsum : byte.toNat / 16 * 16 + byte.toNat % 16 = byte.toNat := by omega
      show unescape ('%' :: hexDigit (byte.toNat / 16) :: hexDigit (byte.toNat % 16) :: rest) = _
      rw [unescape, hhigh, hlow]
      simp only [hsum, UInt8.ofNat_toNat]

theorem unescape_escape (bytes : Bytes) : unescape (escape bytes) = bytes := by
  induction bytes with
  | nil => rfl
  | cons byte bytes ih => rw [escape, List.flatMap_cons, unescape_escapeByte, ← escape, ih]

-- An escaped text has neither of the separators.
theorem mem_escape {bytes : Bytes} {char : Char} (h : char ∈ escape bytes) :
    isPlain char = true ∨ char = '+' ∨ char = '%' := by
  obtain ⟨byte, -, hmem⟩ := List.mem_flatMap.mp h
  have hbyte := byte.toNat_lt
  have hdigit : ∀ value < 16, isPlain (hexDigit value) = true := by decide
  unfold escapeByte at hmem
  split_ifs at hmem with hplain hspace
  · rw [List.mem_singleton.mp hmem]
    exact .inl hplain
  · rw [List.mem_singleton.mp hmem]
    exact .inr (.inl rfl)
  · simp only [List.mem_cons, List.not_mem_nil, or_false] at hmem
    rcases hmem with rfl | rfl | rfl
    · exact .inr (.inr rfl)
    · exact .inl (hdigit _ (by omega))
    · exact .inl (hdigit _ (by omega))

theorem notMem_escape {bytes : Bytes} {separator : Char} (h : separator = '&' ∨ separator = '=') :
    separator ∉ escape bytes := by
  intro hmem
  rcases mem_escape hmem with hplain | rfl | rfl
  · rcases h with rfl | rfl
    · exact absurd hplain (by decide)
    · exact absurd hplain (by decide)
  · exact absurd h (by decide)
  · exact absurd h (by decide)

end Bytes

section Pairs

theorem parsePair_serializePair (pair : Bytes × Bytes) : parsePair (serializePair pair) = pair := by
  have hname : ∀ char ∈ escape pair.1, decide (char ≠ '=') = true := by
    intro char hmem
    rw [decide_eq_true_eq]
    rintro rfl
    exact notMem_escape (.inr rfl) hmem
  have htake : (serializePair pair).takeWhile (· ≠ '=') = escape pair.1 := by
    rw [serializePair, List.takeWhile_append_of_pos hname, List.takeWhile_cons_of_neg (by simp),
      List.append_nil]
  have hdrop : (serializePair pair).dropWhile (· ≠ '=') = '=' :: escape pair.2 := by
    rw [serializePair, List.dropWhile_append_of_pos hname, List.dropWhile_cons_of_neg (by simp)]
  rw [parsePair, htake, hdrop, List.drop_succ_cons, List.drop_zero, unescape_escape,
    unescape_escape]

theorem notMem_serializePair (pair : Bytes × Bytes) : '&' ∉ serializePair pair := by
  have hname : '&' ∉ escape pair.1 := notMem_escape (.inl rfl)
  have hvalue : '&' ∉ escape pair.2 := notMem_escape (.inl rfl)
  simp [serializePair, hname, hvalue]

-- Whatever the names and the values are, the pairs are read as they were written.
theorem parse_serialize (pairs : List (Bytes × Bytes)) : parse (serialize pairs) = pairs := by
  cases pairs with
  | nil => rfl
  | cons pair pairs =>
      have hnone : ∀ part ∈ (pair :: pairs).map serializePair, '&' ∉ part := by
        intro part hmem
        obtain ⟨other, -, rfl⟩ := List.mem_map.mp hmem
        exact notMem_serializePair other
      have hsplit : (serialize (pair :: pairs)).splitOn '&' = (pair :: pairs).map serializePair :=
        List.splitOn_intercalate '&' hnone (by simp)
      have hall : ((pair :: pairs).map serializePair).filter (fun part => !part.isEmpty) =
          (pair :: pairs).map serializePair := by
        rw [List.filter_eq_self]
        intro part hmem
        obtain ⟨other, -, rfl⟩ := List.mem_map.mp hmem
        simp [serializePair]
      have hid : (pair :: pairs).map (parsePair ∘ serializePair) = (pair :: pairs).map id :=
        List.map_congr_left fun other _ => parsePair_serializePair other
      rw [parse, hsplit, hall, List.map_map, hid, List.map_id]

-- Two queries behind each other are read one after the other.
theorem parse_append (first second : List Char) :
    parse (first ++ '&' :: second) = parse first ++ parse second := by
  rw [parse, List.splitOn_append_cons_self, List.filter_append, List.map_append, ← parse, ← parse]

end Pairs

example : String.ofList (serialize [("redirect_uri".toUTF8.toList, "http://a b/".toUTF8.toList)]) =
    "redirect_uri=http%3A%2F%2Fa+b%2F" := by decide +kernel

end Encoding
