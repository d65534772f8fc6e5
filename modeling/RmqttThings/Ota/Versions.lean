import Mathlib.Tactic.Linarith
import RmqttThings.Api.AlarmHandlers

namespace RmqttThings.Ota

open Api (ApiError)

-- A version within the limits that all the parsers share, and its packed form.
@[ext] structure Version where
  major : Nat
  minor : Nat
  patch : Nat
  major_le : major ≤ 99
  minor_le : minor ≤ 99
  patch_le : patch ≤ 999

namespace Version

def encode (version : Version) : Nat :=
  version.major * 100000 + version.minor * 1000 + version.patch

-- The lexicographic order of the three parts.
def Before (version next : Version) : Prop :=
  version.major < next.major ∨ version.major = next.major ∧
    (version.minor < next.minor ∨ version.minor = next.minor ∧ version.patch < next.patch)

def text (version : Version) : String :=
  toString version.major ++ "." ++ toString version.minor ++ "." ++ toString version.patch

variable (version next : Version)

theorem encode_le : version.encode ≤ 9999999 := by
  have hmajor := version.major_le
  have hminor := version.minor_le
  have hpatch := version.patch_le
  unfold encode
  omega

theorem encode_lt_iff : version.encode < next.encode ↔ version.Before next := by
  have hminor := version.minor_le
  have hminor' := next.minor_le
  have hpatch := version.patch_le
  have hpatch' := next.patch_le
  unfold encode Before
  omega

variable {version next} in
theorem encode_injective (h : version.encode = next.encode) : version = next := by
  have hminor := version.minor_le
  have hminor' := next.minor_le
  have hpatch := version.patch_le
  have hpatch' := next.patch_le
  unfold encode at h
  apply Version.ext <;> omega

-- The packed form gives the parts back by division.
theorem encode_div : version.encode / 100000 = version.major ∧
    version.encode % 100000 / 1000 = version.minor ∧ version.encode % 1000 = version.patch := by
  have hminor := version.minor_le
  have hpatch := version.patch_le
  unfold encode
  omega

end Version

-- `str::split('.')`.
def splitDots (version : String) : List String := (version.toList.splitOn '.').map String.ofList

-- `str::parse::<u32>`: an optional `+`, at least one digit, and no overflow.
def parseU32 (text : String) : Option Nat :=
  let (negative, rest) := ParseF64.sign text.toList
  if negative ∨ rest.isEmpty ∨ ¬rest.all Char.isDigit then none
  else if ParseF64.digits rest < 2 ^ 32 then some (ParseF64.digits rest) else none

-- `str::parse::<i32>`: an optional sign, at least one digit, and no overflow.
def parseI32 (text : String) : Option Int32 :=
  let (negative, rest) := ParseF64.sign text.toList
  if rest.isEmpty ∨ ¬rest.all Char.isDigit then none
  else
    let value : Int := if negative then -(ParseF64.digits rest : Int) else ParseF64.digits rest
    if -2 ^ 31 ≤ value ∧ value < 2 ^ 31 then some (Int32.ofInt value) else none

-- What a device reports. The arithmetic is that of `i32`.
def parseSemverToInt (version : String) : Except ApiError Int32 :=
  match splitDots version with
  | [first, second, third] =>
      match parseU32 first, parseU32 second, parseU32 third with
      | some major, some minor, some patch =>
          if 99 < major ∨ 99 < minor ∨ 999 < patch then
            .error (.badRequest "Invalid version format: a segment exceeds its allowed range")
          else .ok (Int32.ofNat major * 100000 + Int32.ofNat minor * 1000 + Int32.ofNat patch)
      | _, _, _ => .error (.badRequest "Invalid version format: each segment must be numeric")
  | _ => .error (.badRequest "Invalid version format: must be major.minor.patch (e.g. 1.2.3)")

-- Division and remainder round towards zero.
def formatSemverFromInt (encoded : Int32) : String :=
  let major := encoded / 100000
  let minor := (encoded % 100000) / 1000
  let patch := encoded % 1000
  toString major.toInt ++ "." ++ toString minor.toInt ++ "." ++ toString patch.toInt

def invalidVersion (version fieldName : String) : ApiError :=
  .badRequest ("Invalid " ++ fieldName ++ " format '" ++ version ++ "': must be x.y.z (e.g. 1.2.3)")

-- One round of the loop of `validate_version_format`.
def validatePart (version fieldName part : String) (max : Nat) : Except ApiError Unit :=
  match parseU32 part with
  | none => .error (invalidVersion version fieldName)
  | some value =>
      if max < value then
        .error (.badRequest ("Invalid " ++ fieldName ++ " format '" ++ version ++
          "': each part exceeds allowed range"))
      else .ok ()

def validateVersionFormat (version fieldName : String) : Except ApiError Unit :=
  match splitDots version with
  | [first, second, third] => do
      validatePart version fieldName first 99
      validatePart version fieldName second 99
      validatePart version fieldName third 999
  | _ => .error (invalidVersion version fieldName)

-- The text of its error is only logged.
def parseVersionToInt (versionStr : String) : Option Int32 :=
  match splitDots versionStr with
  | [first, second, third] => do
      let major ← parseI32 first
      let minor ← parseI32 second
      let patch ← parseI32 third
      if 99 < major.toInt ∨ 99 < minor.toInt ∨ 999 < patch.toInt then none
      else some (major * 100000 + minor * 1000 + patch)
  | _ => none

-- What becomes of a version in a request of the admin API.
def adminVersion (version fieldName : String) : Except ApiError Int32 := do
  validateVersionFormat version fieldName
  match parseVersionToInt version with
  | none => throw Api.databaseError
  | some encoded => return encoded

namespace Frontend

-- `\d{1,max}`, the whole text. A dot is no digit, so the pattern tests the pieces between the dots.
def digitRun (max : Nat) (part : String) : Bool :=
  decide (1 ≤ part.toList.length ∧ part.toList.length ≤ max) && part.toList.all Char.isDigit

def versionRegex (value : String) : Bool :=
  match splitDots value with
  | [first, second, third] => digitRun 2 first && digitRun 2 second && digitRun 3 third
  | _ => false

-- `Number` of decimal digits. The forms use it behind the pattern of a version, which lets nothing
-- else through; texts that `Number` reads besides (blanks, signs, exponents) are `NaN` here.
def number (part : String) : Option Int :=
  if part.toList.isEmpty ∨ ¬part.toList.all Char.isDigit then none
  else some (ParseF64.digits part.toList)

-- The numbers are small integers, which a double holds exactly.
def parseVersion (versionStr : String) : Except String Int :=
  match (splitDots versionStr).map number with
  | [some major, some minor, some patch] =>
      if 99 < major ∨ 99 < minor ∨ 999 < patch then .error "Version component out of valid range."
      else .ok (major * 100000 + minor * 1000 + patch)
  | _ => .error "Invalid version string format. Expected 'major.minor.patch'"

def validateVersion (value label : String) : Option String :=
  if versionRegex value then
    match parseVersion value with
    | .error _ => some (label ++ " has invalid version components")
    | .ok _ => none
  else some (label ++ " must be in x.y.z format (e.g., 1.2.34)")

-- `Math.floor` of a quotient, and a remainder with the sign of the dividend.
def formatVersion (version : Int) : String :=
  let major := version.fdiv 100000
  let minor := (version.tmod 100000).fdiv 1000
  let patch := version.tmod 1000
  toString major ++ "." ++ toString minor ++ "." ++ toString patch

end Frontend

-- The text is read as this version.
def Denotes (text : String) (version : Version) : Prop :=
  (splitDots text).map parseU32 = [some version.major, some version.minor, some version.patch]

namespace Version

variable (version : Version)

def packed : Int32 := Int32.ofNat version.encode

-- The `i32` arithmetic does not overflow.
theorem packed_eq :
    version.packed =
      Int32.ofNat version.major * 100000 + Int32.ofNat version.minor * 1000 +
        Int32.ofNat version.patch := by
  rw [packed, encode, Int32.ofNat_add, Int32.ofNat_add, Int32.ofNat_mul, Int32.ofNat_mul]
  rfl

theorem toInt_packed : version.packed.toInt = version.encode := by
  have hle := version.encode_le
  exact Int32.toInt_ofNat_of_lt (by omega)

variable {version} in
theorem packed_injective {next : Version} (h : version.packed = next.packed) : version = next := by
  have htoInt := congrArg Int32.toInt h
  rw [toInt_packed, toInt_packed] at htoInt
  exact encode_injective (by exact_mod_cast htoInt)

end Version

section Backend

variable {text : String} {encoded : Int32}

theorem denotes_unique {version next : Version} (h : Denotes text version)
    (h' : Denotes text next) : version = next := by
  have hparts := h.symm.trans h'
  simp only [List.cons.injEq, Option.some.injEq, and_true] at hparts
  exact Version.ext hparts.1 hparts.2.1 hparts.2.2

theorem denotes_iff {version : Version} :
    Denotes text version ↔ ∃ first second third, splitDots text = [first, second, third] ∧
      parseU32 first = some version.major ∧ parseU32 second = some version.minor ∧
      parseU32 third = some version.patch := by
  constructor
  · intro h
    obtain ⟨first, rest, hparts, hmajor, hrest⟩ := List.map_eq_cons_iff.mp h
    obtain ⟨second, rest, rfl, hminor, hrest⟩ := List.map_eq_cons_iff.mp hrest
    obtain ⟨third, rest, rfl, hpatch, hrest⟩ := List.map_eq_cons_iff.mp hrest
    rw [List.map_eq_nil_iff.mp hrest] at hparts
    exact ⟨first, second, third, hparts, hmajor, hminor, hpatch⟩
  · rintro ⟨first, second, third, hparts, hmajor, hminor, hpatch⟩
    simp [Denotes, hparts, hmajor, hminor, hpatch]

theorem parseSemverToInt_iff :
    parseSemverToInt text = .ok encoded ↔ ∃ version, Denotes text version ∧
      encoded = version.packed := by
  constructor
  · intro h
    unfold parseSemverToInt at h
    split at h
    · rename_i first second third hparts
      split at h
      · rename_i major minor patch hmajor hminor hpatch
        split_ifs at h with hrange
        let version : Version := ⟨major, minor, patch, by omega, by omega, by omega⟩
        refine ⟨version, denotes_iff.mpr ⟨first, second, third, hparts, hmajor, hminor, hpatch⟩, ?_⟩
        rw [version.packed_eq, ← Except.ok.inj h]
      · cases h
    · cases h
  · rintro ⟨version, hdenotes, rfl⟩
    obtain ⟨first, second, third, hparts, hmajor, hminor, hpatch⟩ := denotes_iff.mp hdenotes
    have hrange : ¬(99 < version.major ∨ 99 < version.minor ∨ 999 < version.patch) := by
      have := version.major_le
      have := version.minor_le
      have := version.patch_le
      omega
    simp only [parseSemverToInt, hparts, hmajor, hminor, hpatch, if_neg hrange, version.packed_eq]

theorem validatePart_iff {version fieldName part : String} {max : Nat} :
    validatePart version fieldName part max = .ok () ↔ ∃ value, parseU32 part = some value ∧
      value ≤ max := by
  unfold validatePart
  cases parseU32 part with
  | none => simp
  | some value =>
      by_cases h : max < value
      · simp [h]
      · simpa [h] using not_lt.mp h

theorem validateVersionFormat_iff {fieldName : String} :
    validateVersionFormat text fieldName = .ok () ↔ ∃ version, Denotes text version := by
  constructor
  · intro h
    unfold validateVersionFormat at h
    split at h
    · rename_i first second third hparts
      obtain ⟨⟨⟩, hfirst, h⟩ := Api.ok_of_bind h
      obtain ⟨⟨⟩, hsecond, hthird⟩ := Api.ok_of_bind h
      obtain ⟨major, hmajor, hmajorLe⟩ := validatePart_iff.mp hfirst
      obtain ⟨minor, hminor, hminorLe⟩ := validatePart_iff.mp hsecond
      obtain ⟨patch, hpatch, hpatchLe⟩ := validatePart_iff.mp hthird
      exact ⟨⟨major, minor, patch, hmajorLe, hminorLe, hpatchLe⟩,
        denotes_iff.mpr ⟨first, second, third, hparts, hmajor, hminor, hpatch⟩⟩
    · cases h
  · rintro ⟨version, hdenotes⟩
    obtain ⟨first, second, third, hparts, hmajor, hminor, hpatch⟩ := denotes_iff.mp hdenotes
    have hfirst : validatePart text fieldName first 99 = .ok () :=
      validatePart_iff.mpr ⟨_, hmajor, version.major_le⟩
    have hsecond : validatePart text fieldName second 99 = .ok () :=
      validatePart_iff.mpr ⟨_, hminor, version.minor_le⟩
    have hthird : validatePart text fieldName third 999 = .ok () :=
      validatePart_iff.mpr ⟨_, hpatch, version.patch_le⟩
    simp only [validateVersionFormat, hparts, hfirst, hsecond]
    exact hthird

-- A number that a signed type can hold is read alike by both integer parsers.
theorem parseI32_of_parseU32 {part : String} {value : Nat} (h : parseU32 part = some value)
    (hvalue : value < 2 ^ 31) :
    parseI32 part = some (Int32.ofNat value) := by
  unfold parseU32 at h
  unfold parseI32
  cases hsign : ParseF64.sign part.toList with
  | mk negative rest =>
      simp only [hsign] at h ⊢
      split_ifs at h with hshape
      obtain rfl := Option.some.inj h
      rw [not_or] at hshape
      obtain ⟨hpositive, hdigits⟩ := hshape
      rw [if_neg hdigits, if_neg hpositive, if_pos (by omega), Int32.ofInt_eq_ofNat]

theorem parseVersionToInt_of_denotes {version : Version} (h : Denotes text version) :
    parseVersionToInt text = some version.packed := by
  obtain ⟨first, second, third, hparts, hmajor, hminor, hpatch⟩ := denotes_iff.mp h
  have hmajorLe := version.major_le
  have hminorLe := version.minor_le
  have hpatchLe := version.patch_le
  have hfirst := parseI32_of_parseU32 hmajor (by omega)
  have hsecond := parseI32_of_parseU32 hminor (by omega)
  have hthird := parseI32_of_parseU32 hpatch (by omega)
  have htoInt {value : Nat} (hvalue : value ≤ 999) : (Int32.ofNat value).toInt = value :=
    Int32.toInt_ofNat_of_lt (by omega)
  simp only [parseVersionToInt, hparts, hfirst, hsecond, hthird, Option.bind_eq_bind,
    Option.bind_some]
  rw [htoInt (by omega), htoInt (by omega), htoInt (by omega), if_neg (by omega), version.packed_eq]

theorem adminVersion_iff {fieldName : String} :
    adminVersion text fieldName = .ok encoded ↔ ∃ version, Denotes text version ∧
      encoded = version.packed := by
  constructor
  · intro h
    obtain ⟨⟨⟩, hformat, h⟩ := Api.ok_of_bind h
    obtain ⟨version, hdenotes⟩ := validateVersionFormat_iff.mp hformat
    rw [parseVersionToInt_of_denotes hdenotes] at h
    exact ⟨version, hdenotes, (Except.ok.inj h).symm⟩
  · rintro ⟨version, hdenotes, rfl⟩
    have hformat : validateVersionFormat text fieldName = .ok () :=
      validateVersionFormat_iff.mpr ⟨version, hdenotes⟩
    rw [adminVersion, hformat, parseVersionToInt_of_denotes hdenotes]
    rfl

end Backend

section Decimals

-- A decimal as the formatters write it: digits only, so that no reader sees a sign or a dot.
theorem toList_decimal (n : Nat) : (toString n).toList = Nat.toDigits 10 n := Nat.toList_repr

theorem digits_decimal (n : Nat) : ParseF64.digits (Nat.toDigits 10 n) = n :=
  Nat.ofDigitChars_ten_toDigits

theorem all_isDigit_decimal (n : Nat) : (Nat.toDigits 10 n).all Char.isDigit = true :=
  List.all_eq_true.mpr fun _ hmem => Nat.isDigit_of_mem_toDigits (by decide) (by decide) hmem

theorem dot_notMem_decimal (n : Nat) : '.' ∉ (toString n).toList := by
  rw [toList_decimal]
  intro hmem
  have hdigit := Nat.isDigit_of_mem_toDigits (by decide) (by decide) hmem
  simp at hdigit

theorem sign_of_digits {chars : List Char} (h : chars.all Char.isDigit = true) :
    ParseF64.sign chars = (false, chars) := by
  unfold ParseF64.sign
  split
  · simp at h
  · simp at h
  · rfl

theorem parseU32_of_digits {part : String} (hne : part.toList ≠ [])
    (h : part.toList.all Char.isDigit = true) (hvalue : ParseF64.digits part.toList < 2 ^ 32) :
    parseU32 part = some (ParseF64.digits part.toList) := by
  rw [parseU32, sign_of_digits h]
  simp only [Bool.false_eq_true, List.isEmpty_iff, hne, h, not_true, or_self, if_false,
    if_pos hvalue]

theorem parseU32_decimal {n : Nat} (h : n < 2 ^ 32) : parseU32 (toString n) = some n := by
  have hne : (toString n).toList ≠ [] := by
    rw [toList_decimal]
    exact Nat.toDigits_ne_nil
  have hdigits : (toString n).toList.all Char.isDigit = true := by
    rw [toList_decimal]
    exact all_isDigit_decimal n
  have hvalue : ParseF64.digits (toString n).toList = n := by
    rw [toList_decimal, digits_decimal]
  have hparse := parseU32_of_digits hne hdigits (by rw [hvalue]; exact h)
  rw [hparse, hvalue]

theorem splitDots_text (version : Version) :
    splitDots version.text = [toString version.major, toString version.minor,
      toString version.patch] := by
  have hjoin : version.text.toList = ['.'].intercalate [(toString version.major).toList,
      (toString version.minor).toList, (toString version.patch).toList] := by
    simp [Version.text]
  rw [splitDots, hjoin, List.splitOn_intercalate '.' _ (by simp)]
  · simp only [List.map_cons, List.map_nil, String.ofList_toList]
  · intro part hpart
    simp only [List.mem_cons, List.not_mem_nil, or_false] at hpart
    rcases hpart with rfl | rfl | rfl <;> exact dot_notMem_decimal _

theorem denotes_text (version : Version) : Denotes version.text version := by
  have hmajor := version.major_le
  have hminor := version.minor_le
  have hpatch := version.patch_le
  rw [Denotes, splitDots_text, List.map_cons, List.map_cons, List.map_cons, List.map_nil,
    parseU32_decimal (by omega), parseU32_decimal (by omega), parseU32_decimal (by omega)]

theorem formatSemverFromInt_packed (version : Version) :
    formatSemverFromInt version.packed = version.text := by
  obtain ⟨hmajor, hminor, hpatch⟩ := version.encode_div
  have hle := version.encode_le
  have hdiv : version.packed / 100000 = Int32.ofNat version.major := by
    rw [← hmajor]
    exact (Int32.ofNat_div (by omega) (by decide)).symm
  have hmod : version.packed % 100000 / 1000 = Int32.ofNat version.minor := by
    have hrest : version.packed % 100000 = Int32.ofNat (version.encode % 100000) :=
      (Int32.ofNat_mod (by omega) (by decide)).symm
    rw [← hminor, hrest]
    exact (Int32.ofNat_div (by omega) (by decide)).symm
  have hlast : version.packed % 1000 = Int32.ofNat version.patch := by
    rw [← hpatch]
    exact (Int32.ofNat_mod (by omega) (by decide)).symm
  have hmajorLe := version.major_le
  have hminorLe := version.minor_le
  have hpatchLe := version.patch_le
  have htoInt {value : Nat} (hvalue : value ≤ 999) : (Int32.ofNat value).toInt = value :=
    Int32.toInt_ofNat_of_lt (by omega)
  simp only [formatSemverFromInt, hdiv, hmod, hlast]
  rw [htoInt (by omega), htoInt (by omega), htoInt (by omega)]
  rfl

end Decimals

namespace Frontend

theorem formatVersion_encode (version : Version) : formatVersion version.encode = version.text := by
  obtain ⟨hmajor, hminor, hpatch⟩ := version.encode_div
  have hdiv : (version.encode : Int).fdiv 100000 = version.major := by
    rw [← hmajor]
    exact (Int.fdiv_eq_ediv_of_nonneg _ (by omega)).trans (by omega)
  have hmod : ((version.encode : Int).tmod 100000).fdiv 1000 = version.minor := by
    rw [← hminor, Int.fdiv_eq_ediv_of_nonneg _ (by omega), Int.tmod_eq_emod_of_nonneg (by omega)]
    omega
  have hlast : (version.encode : Int).tmod 1000 = version.patch := by
    rw [← hpatch, Int.tmod_eq_emod_of_nonneg (by omega)]
    omega
  simp only [formatVersion, hdiv, hmod, hlast]
  rfl

variable {text : String}

theorem parseU32_of_number {part : String} {value : Int} (h : number part = some value)
    (hvalue : value ≤ 999) :
    ∃ n : Nat, value = n ∧ parseU32 part = some n := by
  unfold number at h
  split_ifs at h with hshape
  obtain rfl := Option.some.inj h
  simp only [not_or, List.isEmpty_iff, not_not] at hshape
  exact ⟨_, rfl, parseU32_of_digits hshape.1 hshape.2 (by omega)⟩

-- What the form accepts, the backend reads alike.
theorem parseVersion_denotes {packed : Int} (h : parseVersion text = .ok packed) :
    ∃ version, Denotes text version ∧ packed = version.encode := by
  unfold parseVersion at h
  split at h
  · rename_i major minor patch hparts
    split_ifs at h with hrange
    obtain ⟨first, rest, hsplit, hmajor, hrest⟩ := List.map_eq_cons_iff.mp hparts
    obtain ⟨second, rest, rfl, hminor, hrest⟩ := List.map_eq_cons_iff.mp hrest
    obtain ⟨third, rest, rfl, hpatch, hrest⟩ := List.map_eq_cons_iff.mp hrest
    rw [List.map_eq_nil_iff.mp hrest] at hsplit
    obtain ⟨major, rfl, hfirst⟩ := parseU32_of_number hmajor (by omega)
    obtain ⟨minor, rfl, hsecond⟩ := parseU32_of_number hminor (by omega)
    obtain ⟨patch, rfl, hthird⟩ := parseU32_of_number hpatch (by omega)
    refine ⟨⟨major, minor, patch, by omega, by omega, by omega⟩,
      denotes_iff.mpr ⟨first, second, third, hsplit, hfirst, hsecond, hthird⟩, ?_⟩
    rw [← Except.ok.inj h, Version.encode]
    push_cast
    rfl
  · cases h

theorem number_decimal (n : Nat) : number (toString n) = some (n : Int) := by
  rw [number, toList_decimal, digits_decimal]
  simp [all_isDigit_decimal, Nat.toDigits_ne_nil]

theorem digitRun_decimal {max n : Nat} (hmax : 0 < max) (h : n < 10 ^ max) :
    digitRun max (toString n) = true := by
  rw [digitRun, toList_decimal, all_isDigit_decimal]
  have hpos := Nat.length_toDigits_pos (b := 10) (n := n)
  have hlength := (Nat.length_toDigits_le_iff (by decide) hmax).mpr h
  simpa using ⟨hpos, hlength⟩

theorem parseVersion_text (version : Version) :
    parseVersion version.text = .ok (version.encode : Int) := by
  have hmajor := version.major_le
  have hminor := version.minor_le
  have hpatch := version.patch_le
  simp only [parseVersion, splitDots_text, List.map_cons, List.map_nil, number_decimal]
  rw [if_neg (by omega), Version.encode]
  push_cast
  rfl

theorem validateVersion_text (version : Version) (label : String) :
    validateVersion version.text label = none := by
  have hmajor := version.major_le
  have hminor := version.minor_le
  have hpatch := version.patch_le
  have hpattern : versionRegex version.text = true := by
    rw [versionRegex, splitDots_text]
    simp only [Bool.and_eq_true]
    exact ⟨⟨digitRun_decimal (by decide) (by omega), digitRun_decimal (by decide) (by omega)⟩,
      digitRun_decimal (by decide) (by omega)⟩
  simp only [validateVersion, hpattern, parseVersion_text, if_true]

theorem parseVersion_of_validated {label : String} (h : validateVersion text label = none) :
    ∃ packed, parseVersion text = .ok packed := by
  unfold validateVersion at h
  split at h
  · cases hparse : parseVersion text with
    | error e => simp [hparse] at h
    | ok packed => exact ⟨packed, rfl⟩
  · cases h

end Frontend

-- One codec behind the two paths of the backend and the form of the frontend.
structure OneCodec : Prop where
  paths : ∀ text fieldName encoded, adminVersion text fieldName = .ok encoded ↔
    parseSemverToInt text = .ok encoded
  range : ∀ text encoded, parseSemverToInt text = .ok encoded → 0 ≤ encoded.toInt ∧
    encoded.toInt ≤ 9999999
  -- The packed integer is the one of exact arithmetic.
  exact : ∀ text encoded, parseSemverToInt text = .ok encoded →
    ∃ version, Denotes text version ∧ encoded.toInt = version.major * 100000 + version.minor *
      1000 + version.patch
  monotone : ∀ text text' encoded encoded' version version', parseSemverToInt text = .ok encoded →
    parseSemverToInt text' = .ok encoded' → Denotes text version → Denotes text' version' →
    (encoded.toInt < encoded'.toInt ↔ version.Before version')
  injective : ∀ text text' encoded version version', parseSemverToInt text = .ok encoded →
    parseSemverToInt text' = .ok encoded → Denotes text version → Denotes text' version' →
      version = version'
  roundTrip : ∀ text encoded, parseSemverToInt text = .ok encoded →
    parseSemverToInt (formatSemverFromInt encoded) = .ok encoded ∧
      (∀ fieldName, adminVersion (formatSemverFromInt encoded) fieldName = .ok encoded) ∧
      (∀ label, Frontend.validateVersion (formatSemverFromInt encoded) label = none) ∧
      Frontend.parseVersion (formatSemverFromInt encoded) = .ok encoded.toInt
  frontend : ∀ text label, Frontend.validateVersion text label = none →
    ∃ encoded, parseSemverToInt text = .ok encoded ∧ Frontend.parseVersion text = .ok encoded.toInt
  formatters : ∀ text encoded, parseSemverToInt text = .ok encoded →
    Frontend.formatVersion encoded.toInt = formatSemverFromInt encoded

theorem one_codec : OneCodec where
  paths text fieldName encoded := adminVersion_iff.trans parseSemverToInt_iff.symm
  range text encoded h := by
    obtain ⟨version, -, rfl⟩ := parseSemverToInt_iff.mp h
    have hle := version.encode_le
    rw [version.toInt_packed]
    omega
  exact text encoded h := by
    obtain ⟨version, hdenotes, rfl⟩ := parseSemverToInt_iff.mp h
    refine ⟨version, hdenotes, ?_⟩
    rw [version.toInt_packed, Version.encode]
    push_cast
    rfl
  monotone text text' encoded encoded' version version' h h' hdenotes hdenotes' := by
    obtain ⟨_, hother, rfl⟩ := parseSemverToInt_iff.mp h
    obtain ⟨_, hother', rfl⟩ := parseSemverToInt_iff.mp h'
    obtain rfl := denotes_unique hdenotes hother
    obtain rfl := denotes_unique hdenotes' hother'
    rw [Version.toInt_packed, Version.toInt_packed, ← Version.encode_lt_iff]
    exact Int.ofNat_lt
  injective text text' encoded version version' h h' hdenotes hdenotes' := by
    obtain ⟨_, hother, rfl⟩ := parseSemverToInt_iff.mp h
    obtain ⟨_, hother', hpacked⟩ := parseSemverToInt_iff.mp h'
    rw [denotes_unique hdenotes hother, denotes_unique hdenotes' hother',
      Version.packed_injective hpacked]
  roundTrip text encoded h := by
    obtain ⟨version, -, rfl⟩ := parseSemverToInt_iff.mp h
    rw [formatSemverFromInt_packed, version.toInt_packed]
    have hdenotes := denotes_text version
    exact ⟨parseSemverToInt_iff.mpr ⟨version, hdenotes, rfl⟩,
      fun _ => adminVersion_iff.mpr ⟨version, hdenotes, rfl⟩,
      Frontend.validateVersion_text version, Frontend.parseVersion_text version⟩
  frontend text label h := by
    obtain ⟨packed, hparse⟩ := Frontend.parseVersion_of_validated h
    obtain ⟨version, hdenotes, rfl⟩ := Frontend.parseVersion_denotes hparse
    exact ⟨version.packed, parseSemverToInt_iff.mpr ⟨version, hdenotes,
      rfl⟩, by rw [hparse, version.toInt_packed]⟩
  formatters text encoded h := by
    obtain ⟨version, -, rfl⟩ := parseSemverToInt_iff.mp h
    rw [version.toInt_packed, formatSemverFromInt_packed, Frontend.formatVersion_encode]

example : (parseSemverToInt "+1.02.003").toOption = some 102003 := by decide +kernel

end RmqttThings.Ota
