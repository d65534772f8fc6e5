import RmqttThings.Encoding.FormUrlencoded

namespace Encoding

namespace JsonString

def lowerHexDigit (value : Nat) :
    Char := if value < 10 then Char.ofNat (48 + value) else Char.ofNat (87 + value)

-- The short escapes.
def escapes : List (Char × Char) :=
  [('"', '"'), ('\\', '\\'), (Char.ofNat 8, 'b'), (Char.ofNat 9, 't'), (Char.ofNat 10, 'n'),
    (Char.ofNat 12, 'f'), (Char.ofNat 13, 'r')]

-- The control characters without a short escape are written with four digits.
def escapeChar (char : Char) : List Char :=
  match escapes.lookup char with
  | some letter => ['\\', letter]
  | none =>
      if char.toNat < 32 then
        ['\\', 'u', '0', '0', lowerHexDigit (char.toNat / 16), lowerHexDigit (char.toNat % 16)]
      else [char]

def escape (text : List Char) : List Char := text.flatMap escapeChar

def quote (text : List Char) : List Char := '"' :: escape text ++ ['"']

-- Four digits. A surrogate is no character of its own.
def readHex : List Char → Option (Char × List Char)
  | a :: b :: c :: d :: rest => do
      let a ← hexValue a
      let b ← hexValue b
      let c ← hexValue c
      let d ← hexValue d
      let value := ((a * 16 + b) * 16 + c) * 16 + d
      if value.isValidChar then some (Char.ofNat value, rest) else none
  | _ => none

def unescapes : List (Char × Char) := ('/', '/') :: escapes.map fun (char, letter) => (letter, char)

-- One character of a string, in front of the rest of the text.
def readChar : List Char → Option (Char × List Char)
  | '\\' :: 'u' :: rest => readHex rest
  | '\\' :: letter :: rest => (unescapes.lookup letter).map (·, rest)
  | '"' :: _ => none
  | char :: rest => if char = '\\' ∨ char.toNat < 32 then none else some (char, rest)
  | [] => none

-- Up to the closing quotation mark. Every step takes a character away.
def readRest : (fuel : Nat) → List Char → Option (List Char × List Char)
  | 0, _ => none
  | _ + 1, '"' :: rest => some ([], rest)
  | fuel + 1, text =>
      (readChar text).bind fun (char, rest) => (readRest fuel rest).map fun (chars, rest) =>
        (char :: chars, rest)

def read : List Char → Option (List Char × List Char)
  | '"' :: rest => readRest (rest.length + 1) rest
  | _ => none

theorem hexValue_lowerHexDigit : ∀ value < 16, hexValue (lowerHexDigit value) = some value := by
  decide

theorem lookup_unescapes :
    ∀ entry ∈ escapes, entry.2 ≠ 'u' ∧ unescapes.lookup entry.2 = some entry.1 := by decide

theorem mem_of_lookup {char letter : Char} (h : escapes.lookup char = some letter) :
    (char, letter) ∈ escapes := by
  obtain ⟨before, after, hsplit, -⟩ := List.lookup_eq_some_iff.mp h
  rw [hsplit]
  simp

-- What a character is written with is read as the character, and does not end the string.
theorem readChar_escapeChar (char : Char) (rest : List Char) :
    readChar (escapeChar char ++ rest) = some (char, rest) ∧ (escapeChar char ++ rest).head? ≠
      some '"' := by
  unfold escapeChar
  split
  · next letter hletter =>
      obtain ⟨hne, hback⟩ := lookup_unescapes _ (mem_of_lookup hletter)
      constructor
      · show readChar ('\\' :: letter :: rest) = _
        rw [readChar, hback, Option.map_some]
        exact hne
      · simp
  · next hnone =>
      by_cases hcontrol : char.toNat < 32
      · rw [if_pos hcontrol]
        have hhigh := hexValue_lowerHexDigit (char.toNat / 16) (by omega)
        have hlow := hexValue_lowerHexDigit (char.toNat % 16) (by omega)
        have hzero : hexValue '0' = some 0 := rfl
        have hvalid : char.toNat.isValidChar := char.valid
        have hvalue : ((0 * 16 + 0) * 16 + char.toNat / 16) * 16 + char.toNat % 16 =
            char.toNat := by omega
        constructor
        · show readHex ('0' :: '0' :: lowerHexDigit (char.toNat / 16) :: lowerHexDigit
            (char.toNat % 16) :: rest) = _
          simp only [readHex, hzero, hhigh, hlow, Option.bind_eq_bind, Option.bind_some, hvalue]
          rw [if_pos hvalid, Char.ofNat_toNat]
        · simp
      · have hquote : char ≠ '"' := by
          rintro rfl
          cases hnone
        have hback : char ≠ '\\' := by
          rintro rfl
          cases hnone
        rw [if_neg hcontrol, List.singleton_append]
        constructor
        · rw [readChar]
          · rw [if_neg (not_or.mpr ⟨hback, hcontrol⟩)]
          · rintro _ rfl
            exact absurd rfl hback
          · rintro _ _ rfl
            exact absurd rfl hback
          · rintro rfl
            exact absurd rfl hquote
        · simpa using hquote

theorem readRest_escape (text rest : List Char) {fuel : Nat} (h : text.length < fuel) :
    readRest fuel (escape text ++ '"' :: rest) = some (text, rest) := by
  induction text generalizing fuel with
  | nil =>
      cases fuel with
      | zero => cases h
      | succ fuel => rfl
  | cons char text ih =>
      cases fuel with
      | zero => cases h
      | succ fuel =>
          obtain ⟨hchar, hhead⟩ := readChar_escapeChar char (escape text ++ '"' :: rest)
          have htail := @ih fuel (Nat.lt_of_succ_lt_succ h)
          rw [escape, List.flatMap_cons, ← escape, List.append_assoc]
          generalize escapeChar char ++ (escape text ++ '"' :: rest) = whole at hchar hhead ⊢
          rw [readRest]
          · simp only [hchar, Option.bind_some, htail, Option.map_some]
          · rintro _ rfl
            exact hhead rfl

theorem length_escape (text : List Char) : text.length ≤ (escape text).length := by
  induction text with
  | nil => exact Nat.le_refl 0
  | cons char text ih =>
      have hone : 1 ≤ (escapeChar char).length := by
        unfold escapeChar
        split
        · simp
        · split
          · simp
          · simp
      rw [escape, List.flatMap_cons, ← escape, List.length_append, List.length_cons]
      omega

-- A string is read as the text it was written for, whatever follows it.
theorem read_quote (text rest : List Char) : read (quote text ++ rest) = some (text, rest) := by
  have hlength := length_escape text
  show readRest ((escape text ++ ['"'] ++ rest).length + 1) (escape text ++ ['"'] ++ rest) = _
  rw [List.append_assoc, List.singleton_append]
  apply readRest_escape
  rw [List.length_append]
  omega

end JsonString

end Encoding
