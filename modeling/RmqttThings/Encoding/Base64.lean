import Mathlib.Data.List.Nodup

namespace Encoding

-- Six bits, the digit that one symbol stands for.
abbrev Sextet := Fin 64

-- The symbols of a variant of Base64.
structure Alphabet where
  symbols : List Char
  length_eq : symbols.length = 64
  nodup : symbols.Nodup

namespace Alphabet

def symbol (alphabet : Alphabet) (sextet : Sextet) : Char :=
  alphabet.symbols.get (sextet.cast alphabet.length_eq.symm)

def index (alphabet : Alphabet) (char : Char) : Option Sextet :=
  (alphabet.symbols.finIdxOf? char).map (Fin.cast alphabet.length_eq)

theorem index_eq_some_iff {alphabet : Alphabet} {char : Char} {sextet : Sextet} :
    alphabet.index char = some sextet ↔ char = alphabet.symbol sextet := by
  have hlength := alphabet.length_eq
  constructor
  · intro h
    obtain ⟨place, hplace, rfl⟩ := Option.map_eq_some_iff.mp h
    exact (List.finIdxOf?_eq_some_iff.mp hplace).1.symm
  · rintro rfl
    refine Option.map_eq_some_iff.mpr ⟨Fin.cast hlength.symm sextet,
      List.finIdxOf?_eq_some_iff.mpr ⟨rfl, ?_⟩, rfl⟩
    intro earlier hlt he
    have hsame := (alphabet.nodup.getElem_inj_iff).mp he
    exact absurd hsame (Nat.ne_of_lt hlt)

theorem symbol_mem (alphabet : Alphabet) (sextet : Sextet) :
    alphabet.symbol sextet ∈ alphabet.symbols :=
  List.getElem_mem _

def urlSafe : Alphabet where
  symbols :=
    ['A', 'B', 'C', 'D', 'E', 'F', 'G', 'H', 'I', 'J', 'K', 'L', 'M', 'N', 'O', 'P', 'Q', 'R',
      'S', 'T',
      'U', 'V', 'W', 'X', 'Y', 'Z', 'a', 'b', 'c', 'd', 'e', 'f', 'g', 'h', 'i', 'j', 'k', 'l',
        'm', 'n',
      'o', 'p', 'q', 'r', 's', 't', 'u', 'v', 'w', 'x', 'y', 'z', '0', '1', '2', '3', '4', '5',
        '6', '7',
      '8', '9', '-', '_']
  length_eq := by decide
  nodup := by decide +kernel

end Alphabet

section Groups

-- Three bytes make four digits. What is left at the end is filled up with zero bits.
def sextets : List UInt8 → List Sextet
  | a :: b :: c :: rest =>
      .ofNat 64 (a.toNat / 4) :: .ofNat 64 (a.toNat % 4 * 16 + b.toNat / 16) ::
        .ofNat 64 (b.toNat % 16 * 4 + c.toNat / 64) :: .ofNat 64 (c.toNat % 64) :: sextets rest
  | [a, b] =>
      [.ofNat 64 (a.toNat / 4), .ofNat 64 (a.toNat % 4 * 16 + b.toNat / 16),
        .ofNat 64 (b.toNat % 16 * 4)]
  | [a] => [.ofNat 64 (a.toNat / 4), .ofNat 64 (a.toNat % 4 * 16)]
  | [] => []

-- The bits that fill up the last group must be zero.
def octets : List Sextet → Option (List UInt8)
  | p :: q :: r :: s :: rest =>
      (octets rest).map fun tail =>
        .ofNat (p.val * 4 + q.val / 16) :: .ofNat (q.val % 16 * 16 + r.val / 4) ::
          .ofNat (r.val % 4 * 64 + s.val) :: tail
  | [p, q, r] =>
      if r.val % 4 = 0 then some [.ofNat (p.val * 4 + q.val / 16),
        .ofNat (q.val % 16 * 16 + r.val / 4)] else none
  | [p, q] => if q.val % 16 = 0 then some [.ofNat (p.val * 4 + q.val / 16)] else none
  | [_] => none
  | [] => some []

theorem uint8_eq_iff {byte : UInt8} {value : Nat} (h : value < 256) :
    UInt8.ofNat value = byte ↔ value = byte.toNat := by
  rw [← UInt8.toNat_inj, UInt8.toNat_ofNat', Nat.mod_eq_of_lt h]

theorem sextet_eq_iff {sextet : Sextet} {value : Nat} (h : value < 64) :
    Fin.ofNat 64 value = sextet ↔ value = sextet.val := by
  rw [Fin.ext_iff, Fin.val_ofNat, Nat.mod_eq_of_lt h]

theorem octets_sextets (bytes : List UInt8) : octets (sextets bytes) = some bytes := by
  induction bytes using sextets.induct with
  | case1 a b c rest ih =>
      have ha := a.toNat_lt
      have hb := b.toNat_lt
      have hc := c.toNat_lt
      simp only [sextets, octets, ih, Option.map_some, Fin.val_ofNat, Option.some.injEq,
        List.cons.injEq, and_true]
      refine ⟨(uint8_eq_iff (by omega)).mpr (by omega), (uint8_eq_iff (by omega)).mpr (by omega),
        (uint8_eq_iff (by omega)).mpr (by omega)⟩
  | case2 a b =>
      have ha := a.toNat_lt
      have hb := b.toNat_lt
      simp only [sextets, octets, Fin.val_ofNat]
      rw [if_pos (by omega), Option.some.injEq, List.cons.injEq, List.cons.injEq]
      exact ⟨(uint8_eq_iff (by omega)).mpr (by omega), (uint8_eq_iff (by omega)).mpr (by omega),
        rfl⟩
  | case3 a =>
      have ha := a.toNat_lt
      simp only [sextets, octets, Fin.val_ofNat]
      rw [if_pos (by omega), Option.some.injEq, List.cons.injEq]
      exact ⟨(uint8_eq_iff (by omega)).mpr (by omega), rfl⟩
  | case4 => rfl

theorem sextets_of_octets {digits : List Sextet} {bytes : List UInt8}
    (h : octets digits = some bytes) :
    sextets bytes = digits := by
  induction digits using octets.induct generalizing bytes with
  | case1 p q r s rest ih =>
      obtain ⟨tail, htail, rfl⟩ := Option.map_eq_some_iff.mp h
      have hp := p.isLt
      have hq := q.isLt
      have hr := r.isLt
      have hs := s.isLt
      simp only [sextets, UInt8.toNat_ofNat', ih htail, List.cons.injEq, and_true]
      refine ⟨(sextet_eq_iff (by omega)).mpr (by omega), (sextet_eq_iff (by omega)).mpr (by omega),
        (sextet_eq_iff (by omega)).mpr (by omega), (sextet_eq_iff (by omega)).mpr (by omega)⟩
  | case2 p q r hzero =>
      rw [octets, if_pos hzero, Option.some.injEq] at h
      subst h
      have hp := p.isLt
      have hq := q.isLt
      have hr := r.isLt
      simp only [sextets, UInt8.toNat_ofNat', List.cons.injEq, and_true]
      refine ⟨(sextet_eq_iff (by omega)).mpr (by omega), (sextet_eq_iff (by omega)).mpr (by omega),
        (sextet_eq_iff (by omega)).mpr (by omega)⟩
  | case3 p q r hzero =>
      rw [octets, if_neg hzero] at h
      cases h
  | case4 p q hzero =>
      rw [octets, if_pos hzero, Option.some.injEq] at h
      subst h
      have hp := p.isLt
      have hq := q.isLt
      simp only [sextets, UInt8.toNat_ofNat', List.cons.injEq, and_true]
      exact ⟨(sextet_eq_iff (by omega)).mpr (by omega), (sextet_eq_iff (by omega)).mpr (by omega)⟩
  | case5 p q hzero =>
      rw [octets, if_neg hzero] at h
      cases h
  | case6 _ => cases h
  | case7 =>
      cases h
      rfl

end Groups

section Symbols

variable (alphabet : Alphabet)

-- Without padding.
def encodeNoPad (bytes : List UInt8) : List Char := (sextets bytes).map alphabet.symbol

def decodeNoPad (text : List Char) : Option (List UInt8) := (text.mapM alphabet.index).bind octets

theorem mapM_index_eq_some_iff {text : List Char} {digits : List Sextet} :
    text.mapM alphabet.index = some digits ↔ text = digits.map alphabet.symbol := by
  induction text generalizing digits with
  | nil => cases digits <;> simp
  | cons char text ih =>
      cases digits with
      | nil => simp [List.mapM_cons, Option.bind_eq_some_iff]
      | cons digit digits =>
          simp [List.mapM_cons, Option.bind_eq_some_iff, Alphabet.index_eq_some_iff, ih]

-- A text is read as some bytes exactly if it is how these bytes are written.
theorem decodeNoPad_eq_some_iff {text : List Char} {bytes : List UInt8} :
    decodeNoPad alphabet text = some bytes ↔ text = encodeNoPad alphabet bytes := by
  rw [decodeNoPad, Option.bind_eq_some_iff]
  constructor
  · rintro ⟨digits, hdigits, hbytes⟩
    rw [(mapM_index_eq_some_iff alphabet).mp hdigits, encodeNoPad, sextets_of_octets hbytes]
  · intro htext
    exact ⟨sextets bytes, (mapM_index_eq_some_iff alphabet).mpr htext, octets_sextets bytes⟩

theorem decodeNoPad_encodeNoPad (bytes : List UInt8) :
    decodeNoPad alphabet (encodeNoPad alphabet bytes) = some bytes :=
  (decodeNoPad_eq_some_iff alphabet).mpr rfl

theorem mem_symbols_of_mem_encodeNoPad {bytes : List UInt8} {char : Char}
    (h : char ∈ encodeNoPad alphabet bytes) :
    char ∈ alphabet.symbols := by
  obtain ⟨sextet, -, rfl⟩ := List.mem_map.mp h
  exact alphabet.symbol_mem sextet

end Symbols

example : encodeNoPad .urlSafe "Ma".toUTF8.toList = "TWE".toList := by decide +kernel
example : decodeNoPad .urlSafe "TWF".toList = none := by decide +kernel

end Encoding
