import RmqttThings.Access.Redirects
import RmqttThings.RuleEngine.Keys
import RmqttThings.Text

namespace RmqttThings.Access

structure Ipv4Addr where
  first : UInt8
  second : UInt8
  third : UInt8
  fourth : UInt8
  deriving DecidableEq

-- Eight groups of 16 bits.
abbrev Ipv6Addr := { groups : List UInt16 // groups.length = 8 }

inductive IpAddr where
  | v4 (addr : Ipv4Addr)
  | v6 (addr : Ipv6Addr)
  deriving DecidableEq

section Parser

-- A reader of the front of a text, with what is left of it. A failed reader consumes nothing.
abbrev Reader (α : Type) := List Char → Option (α × List Char)

-- `char::to_digit`.
def toDigit (radix : Nat) (char : Char) : Option Nat :=
  let digit :=
    if '0' ≤ char ∧ char ≤ '9' then some (char.toNat - 48)
    else if 'a' ≤ char ∧ char ≤ 'z' then some (char.toNat - 87)
    else if 'A' ≤ char ∧ char ≤ 'Z' then some (char.toNat - 55)
    else none
  digit.filter (· < radix)

def number (radix : Nat) (digits : List Char) : Nat :=
  digits.foldl (fun value char => value * radix + (toDigit radix char).getD 0) 0

def readNumber (radix maxDigits limit : Nat) (allowZeroPrefix : Bool) : Reader Nat := fun text =>
  let digits := text.takeWhile fun char => (toDigit radix char).isSome
  if digits = [] ∨ digits.length > maxDigits then none
  else if !allowZeroPrefix ∧ text.head? = some '0' ∧ digits.length > 1 then none
  else if number radix digits < limit then some (number radix digits, text.drop digits.length)
  else none

-- The separator stands before every element but the first.
def readSeparator {α : Type} (separator : Char) (index : Nat) (inner : Reader α) : Reader α :=
  fun text =>
  if index = 0 then inner text
  else
    match text with
    | char :: rest => if char = separator then inner rest else none
    | [] => none

-- An octet has no leading zero.
def readOctet (index : Nat) : Reader UInt8 := fun text =>
  (readSeparator '.' index (readNumber 10 3 256 false) text).map fun (value, rest) =>
    (UInt8.ofNat value, rest)

def readIpv4Addr : Reader Ipv4Addr := fun text => do
  let (first, text) ← readOctet 0 text
  let (second, text) ← readOctet 1 text
  let (third, text) ← readOctet 2 text
  let (fourth, text) ← readOctet 3 text
  return (⟨first, second, third, fourth⟩, text)

def joinOctets (high low : UInt8) : UInt16 := UInt16.ofNat (high.toNat * 256 + low.toNat)

-- At most `room` groups, and whether an IPv4 address makes up the last two of them.
def readGroups : (room index : Nat) → List Char → List UInt16 × Bool × List Char
  | 0, _, text => ([], false, text)
  | room + 1, index, text =>
      match if room = 0 then none else readSeparator ':' index readIpv4Addr text with
      | some (addr, rest) =>
          ([joinOctets addr.first addr.second, joinOctets addr.third addr.fourth], true, rest)
      | none =>
          match readSeparator ':' index (readNumber 16 4 65536 true) text with
          | none => ([], false, text)
          | some (group, rest) =>
              let (groups, ipv4, rest) := readGroups room (index + 1) rest
              (UInt16.ofNat group :: groups, ipv4, rest)

theorem length_readGroups (room index : Nat) (text : List Char) :
    (readGroups room index text).1.length ≤ room := by
  induction room generalizing index text with
  | zero => exact Nat.le_refl 0
  | succ room ih =>
      rw [readGroups]
      split
      · next addr rest h =>
          have hroom : room ≠ 0 := by
            rintro rfl
            cases h
          simp only [List.length_cons, List.length_nil]
          omega
      · split
        · exact Nat.zero_le _
        · next group rest _ => exact Nat.succ_le_succ (ih (index + 1) rest)

-- Zeroes fill the place of the `::`.
def joinGroups (head tail : List UInt16) : List UInt16 :=
  head ++ List.replicate (8 - head.length - tail.length) 0 ++ tail

theorem length_joinGroups {head tail : List UInt16} (h : head.length + tail.length ≤ 8) :
    (joinGroups head tail).length = 8 := by
  rw [joinGroups, List.length_append, List.length_append, List.length_replicate]
  omega

theorem length_joinGroups_read {head : List UInt16} (h : head.length ≤ 8) (text : List Char) :
    (joinGroups head (readGroups (8 - (head.length + 1)) 0 text).1).length = 8 := by
  have htail := length_readGroups (8 - (head.length + 1)) 0 text
  exact length_joinGroups (by omega)

-- The `::` stands for at least one group.
def readIpv6Addr : Reader Ipv6Addr := fun text =>
  let head := readGroups 8 0 text
  if hfull : head.1.length = 8 then some (⟨head.1, hfull⟩, head.2.2)
  else if head.2.1 then none
  else
    match head.2.2 with
    | ':' :: ':' :: rest =>
        let tail := readGroups (8 - (head.1.length + 1)) 0 rest
        some (⟨joinGroups head.1 tail.1, length_joinGroups_read (length_readGroups 8 0 text) rest⟩,
          tail.2.2)
    | _ => none

-- `str::parse::<IpAddr>`: the whole text is one address.
def parseIpAddr (text : String) : Option IpAddr :=
  match (readIpv4Addr text.toList).map (fun (addr, rest) => (IpAddr.v4 addr, rest)) <|>
      (readIpv6Addr text.toList).map fun (addr, rest) => (IpAddr.v6 addr, rest) with
  | some (addr, []) => some addr
  | _ => none

-- `Ipv4Addr`'s `Display`.
def Ipv4Addr.text (addr : Ipv4Addr) : String :=
  ".".intercalate [toString addr.first.toNat, toString addr.second.toNat, toString addr.third.toNat,
    toString addr.fourth.toNat]

end Parser

def isPrivateIp : IpAddr → Bool
  | .v4 addr =>
      addr.first == 127 || addr.first == 10 || (addr.first == 172 && addr.second &&& 0xf0 == 16) ||
        (addr.first == 192 && addr.second == 168)
  | .v6 addr => addr.val == [0, 0, 0, 0, 0, 0, 0, 1] || addr.val.headD 0 &&& 0xfe00 == 0xfc00

-- The address in a header, if there is one.
def headerIp (headers : HeaderMap) (name : String) (entry : String → String) : Option IpAddr :=
  ((headers.lookup name).bind toStr).bind fun value => parseIpAddr (trim (entry value))

-- `str::split(',').next()`.
def firstEntry (text : String) : String := String.ofList (text.toList.takeWhile (· != ','))

-- `connectInfo` is the address of the peer, where the server has it.
def extractClientIp (headers : HeaderMap) (connectInfo : Option IpAddr) : Option IpAddr :=
  headerIp headers "x-real-ip" id <|> headerIp headers "x-forwarded-for" firstEntry <|> connectInfo

section Blocks

-- The addresses that agree with `base` in their first `length` bits.
structure Block (width : Nat) where
  base : BitVec width
  length : Nat
  length_le : length ≤ width

def Block.Contains {width : Nat} (block : Block width) (addr : BitVec width) : Prop :=
  ∀ index < block.length, addr.getMsbD index = block.base.getMsbD index

def Ipv4Addr.bits (addr : Ipv4Addr) : BitVec 32 :=
  .ofNat 32 (((addr.first.toNat * 256 + addr.second.toNat) * 256 + addr.third.toNat) * 256 +
    addr.fourth.toNat)

def Ipv6Addr.bits (addr : Ipv6Addr) : BitVec 128 :=
  .ofNat 128 (addr.val.foldl (fun value group => value * 65536 + group.toNat) 0)

-- Loopback, the three classes of private networks.
def privateBlocks4 : List (Block 32) :=
  [⟨(Ipv4Addr.mk 127 0 0 0).bits, 8, by decide⟩, ⟨(Ipv4Addr.mk 10 0 0 0).bits, 8, by decide⟩,
    ⟨(Ipv4Addr.mk 172 16 0 0).bits, 12, by decide⟩, ⟨(Ipv4Addr.mk 192 168 0 0).bits, 16, by decide⟩]

-- Loopback and the unique local addresses.
def privateBlocks6 : List (Block 128) :=
  [⟨Ipv6Addr.bits ⟨[0, 0, 0, 0, 0, 0, 0, 1], rfl⟩, 128, by decide⟩,
    ⟨Ipv6Addr.bits ⟨[0xfc00, 0, 0, 0, 0, 0, 0, 0], rfl⟩, 7, by decide⟩]

-- The addresses that the webhooks are open to.
def IpAddr.Private : IpAddr → Prop
  | .v4 addr => ∃ block ∈ privateBlocks4, block.Contains addr.bits
  | .v6 addr => ∃ block ∈ privateBlocks6, block.Contains (Ipv6Addr.bits addr)

-- The first bits are the quotient by the weight of the others.
theorem contains_iff {width : Nat} {block : Block width} {addr : BitVec width} :
    block.Contains addr ↔
      addr.toNat / 2 ^ (width - block.length) = block.base.toNat / 2 ^ (width - block.length) := by
  have hle := block.length_le
  rw [← Nat.shiftRight_eq_div_pow, ← Nat.shiftRight_eq_div_pow, ← BitVec.toNat_ushiftRight,
    ← BitVec.toNat_ushiftRight, BitVec.toNat_inj]
  constructor
  · intro h
    apply BitVec.eq_of_getMsbD_eq
    intro index hlt
    rw [BitVec.getMsbD_ushiftRight, BitVec.getMsbD_ushiftRight]
    by_cases hshifted : index < width - block.length
    · simp [hshifted]
    · simp only [hlt, hshifted, decide_true, decide_false, Bool.not_false, Bool.true_and]
      exact h (index - (width - block.length)) (by omega)
  · intro h index hlt
    have hbit := congrArg (fun bits => bits.getMsbD (width - block.length + index)) h
    simp only [BitVec.getMsbD_ushiftRight] at hbit
    have hnot : ¬width - block.length + index < width - block.length := by omega
    have hwidth : width - block.length + index < width := by omega
    simpa [hnot, hwidth] using hbit

-- A mask keeps the weight of the first bits.
theorem and_mask {width length value : Nat} (h : value < 2 ^ (length + width)) :
    value &&& ((2 ^ length - 1) * 2 ^ width) = value / 2 ^ width * 2 ^ width := by
  apply Nat.eq_of_testBit_eq
  intro index
  rw [Nat.testBit_and, ← Nat.shiftLeft_eq, ← Nat.shiftLeft_eq, ← Nat.shiftRight_eq_div_pow,
    Nat.testBit_shiftLeft,
    Nat.testBit_shiftLeft, Nat.testBit_shiftRight, Nat.testBit_two_pow_sub_one]
  by_cases hlow : width ≤ index
  · have hindex : width + (index - width) = index := by omega
    by_cases hhigh : index - width < length
    · simp [hlow, hhigh, hindex]
    · have hzero : value.testBit index = false :=
        Nat.testBit_lt_two_pow (Nat.lt_of_lt_of_le h (Nat.pow_le_pow_right (by decide) (by omega)))
      simp [hindex, hzero]
  · simp [hlow]

theorem secondOctet_iff (octet : UInt8) : octet &&& 0xf0 = 16 ↔ octet.toNat / 16 = 1 := by
  have hmask : octet.toNat &&& ((2 ^ 4 - 1) * 2 ^ 4) = octet.toNat / 2 ^ 4 * 2 ^ 4 :=
    and_mask octet.toNat_lt
  rw [← UInt8.toNat_inj, UInt8.toNat_and]
  constructor
  · intro h
    have : octet.toNat / 16 * 16 = 16 := hmask.symm.trans h
    omega
  · intro h
    refine hmask.trans ?_
    rw [show (2 : Nat) ^ 4 = 16 from rfl, h]
    rfl

theorem firstGroup_iff (group : UInt16) : group &&& 0xfe00 = 0xfc00 ↔ group.toNat / 512 = 126 := by
  have hmask : group.toNat &&& ((2 ^ 7 - 1) * 2 ^ 9) = group.toNat / 2 ^ 9 * 2 ^ 9 :=
    and_mask group.toNat_lt
  rw [← UInt16.toNat_inj, UInt16.toNat_and]
  constructor
  · intro h
    have : group.toNat / 512 * 512 = 64512 := hmask.symm.trans h
    omega
  · intro h
    refine hmask.trans ?_
    rw [show (2 : Nat) ^ 9 = 512 from rfl, h]
    rfl

theorem toNat_bits4 (addr : Ipv4Addr) : addr.bits.toNat =
    ((addr.first.toNat * 256 + addr.second.toNat) * 256 + addr.third.toNat) * 256 +
      addr.fourth.toNat := by
  have h1 := addr.first.toNat_lt
  have h2 := addr.second.toNat_lt
  have h3 := addr.third.toNat_lt
  have h4 := addr.fourth.toNat_lt
  rw [Ipv4Addr.bits, BitVec.toNat_ofNat, Nat.mod_eq_of_lt (by omega)]

theorem isPrivateIp_v4 (addr : Ipv4Addr) :
    isPrivateIp (.v4 addr) = true ↔ (IpAddr.v4 addr).Private := by
  have h1 := addr.first.toNat_lt
  have h2 := addr.second.toNat_lt
  have h3 := addr.third.toNat_lt
  have h4 := addr.fourth.toNat_lt
  have hbits := toNat_bits4 addr
  have h24 : addr.bits.toNat / 2 ^ 24 = addr.first.toNat := by omega
  have h20 : addr.bits.toNat / 2 ^ 20 = addr.first.toNat * 16 + addr.second.toNat / 16 := by omega
  have h16 : addr.bits.toNat / 2 ^ 16 = addr.first.toNat * 256 + addr.second.toNat := by omega
  have hoctets : isPrivateIp (.v4 addr) = true ↔ ((addr.first.toNat = 127 ∨ addr.first.toNat = 10) ∨
      addr.first.toNat = 172 ∧ addr.second.toNat / 16 = 1) ∨ addr.first.toNat = 192 ∧
        addr.second.toNat = 168 := by
    simp only [isPrivateIp, Bool.or_eq_true, Bool.and_eq_true, beq_iff_eq, secondOctet_iff]
    simp only [← UInt8.toNat_inj]
    rfl
  have hblocks : (IpAddr.v4 addr).Private ↔ addr.first.toNat = 127 ∨ addr.first.toNat = 10 ∨
      addr.first.toNat * 16 + addr.second.toNat / 16 = 172 * 16 + 1 ∨
      addr.first.toNat * 256 + addr.second.toNat = 192 * 256 + 168 := by
    simp only [IpAddr.Private, privateBlocks4, List.mem_cons, List.not_mem_nil, or_false,
      exists_eq_or_imp, exists_eq_left, contains_iff, Nat.reduceSub, h24, h20, h16]
    rfl
  rw [hoctets, hblocks]
  omega

def groupsValue (value : Nat) (groups : List UInt16) : Nat :=
  groups.foldl (fun value group => value * 65536 + group.toNat) value

-- What was read first has the most weight.
theorem groupsValue_div (groups : List UInt16) (value : Nat) :
    groupsValue value groups / 65536 ^ groups.length = value := by
  induction groups generalizing value with
  | nil => simp [groupsValue]
  | cons group groups ih =>
      have hgroup := group.toNat_lt
      have htail : groupsValue value (group :: groups) = groupsValue (value * 65536 + group.toNat)
          groups := rfl
      rw [List.length_cons, Nat.pow_succ, ← Nat.div_div_eq_div_mul, htail, ih]
      omega

theorem groupsValue_inj {groups other : List UInt16} (h : groups.length = other.length)
    {value value' : Nat} (heq : groupsValue value groups = groupsValue value' other) :
    value = value' ∧ groups = other := by
  induction groups generalizing other value value' with
  | nil =>
      cases other with
      | nil => exact ⟨heq, rfl⟩
      | cons group other => cases h
  | cons group groups ih =>
      cases other with
      | nil => cases h
      | cons group' other =>
          have hlength : groups.length = other.length := by simpa using h
          obtain ⟨hnext, rfl⟩ := ih hlength heq
          have hvalue : value * 65536 + group.toNat = value' * 65536 + group'.toNat := hnext
          have h1 := group.toNat_lt
          have h2 := group'.toNat_lt
          have hgroup : group = group' := UInt16.toNat_inj.mp (by omega)
          subst hgroup
          exact ⟨by omega, rfl⟩

theorem toNat_bits6 (addr : Ipv6Addr) : (Ipv6Addr.bits addr).toNat = groupsValue 0 addr.val := by
  have hdiv := groupsValue_div addr.val 0
  rw [addr.property] at hdiv
  have hlt : groupsValue 0 addr.val < 65536 ^ 8 := by
    rcases Nat.div_eq_zero_iff.mp hdiv with hzero | hlt
    · cases hzero
    · exact hlt
  exact (BitVec.toNat_ofNat ..).trans (Nat.mod_eq_of_lt hlt)

theorem isPrivateIp_v6 (addr : Ipv6Addr) :
    isPrivateIp (.v6 addr) = true ↔ (IpAddr.v6 addr).Private := by
  have hlocal : (Ipv6Addr.bits addr).toNat / 2 ^ 0 = 1 ↔ addr.val = [0, 0, 0, 0, 0, 0, 0, 1] := by
    rw [Nat.pow_zero, Nat.div_one, toNat_bits6]
    constructor
    · intro h
      have heq : groupsValue 0 addr.val = groupsValue 0 [0, 0, 0, 0, 0, 0, 0, 1] := h
      exact (groupsValue_inj addr.property heq).2
    · intro h
      rw [h]
      rfl
  have hfirst : (Ipv6Addr.bits addr).toNat / 2 ^ 121 = (addr.val.headD 0).toNat / 512 := by
    obtain ⟨groups, hlength⟩ := addr
    cases groups with
    | nil => cases hlength
    | cons group groups =>
        have hdiv := groupsValue_div groups (0 * 65536 + group.toNat)
        have hseven : groups.length = 7 := by simpa using hlength
        have hpow : (2 : Nat) ^ 121 = 65536 ^ 7 * 512 := rfl
        rw [hseven] at hdiv
        rw [toNat_bits6, hpow, ← Nat.div_div_eq_div_mul]
        refine (congrArg (· / 512) hdiv).trans ?_
        simp
  have hblocks : (IpAddr.v6 addr).Private ↔
      (Ipv6Addr.bits addr).toNat / 2 ^ 0 = 1 ∨ (Ipv6Addr.bits addr).toNat / 2 ^ 121 = 126 := by
    simp only [IpAddr.Private, privateBlocks6, List.mem_cons, List.not_mem_nil, or_false,
      exists_eq_or_imp, exists_eq_left, contains_iff, Nat.reduceSub]
    rfl
  rw [hblocks, hlocal, hfirst, isPrivateIp, Bool.or_eq_true, beq_iff_eq, beq_iff_eq, firstGroup_iff]

-- The masks of the source are the blocks of its comment.
theorem isPrivateIp_iff (addr : IpAddr) : isPrivateIp addr = true ↔ addr.Private := by
  cases addr with
  | v4 addr => exact isPrivateIp_v4 addr
  | v6 addr => exact isPrivateIp_v6 addr

end Blocks

section RoundTrip

-- What an octet is written with.
theorem octet_digits : ∀ octet :
    Fin 256, ((toString octet.val).toList.all fun char => (toDigit 10 char).isSome) = true ∧
    (toString octet.val).toList ≠ [] ∧ (toString octet.val).toList.length ≤ 3 ∧
    ((toString octet.val).toList.head? = some '0' → (toString octet.val).toList.length ≤ 1) ∧
    number 10 (toString octet.val).toList = octet.val := by decide +kernel

theorem readNumber_octet (octet : UInt8) {rest : List Char}
    (h : ∀ char ∈ rest.head?, toDigit 10 char = none) :
    readNumber 10 3 256 false ((toString octet.toNat).toList ++ rest) = some (octet.toNat,
      rest) := by
  obtain ⟨hall, hne, hlength, hzero, hnumber⟩ := octet_digits ⟨octet.toNat, octet.toNat_lt⟩
  simp only at hall hne hlength hzero hnumber
  generalize (toString octet.toNat).toList = digits at hall hne hlength hzero hnumber ⊢
  have htake : (digits ++ rest).takeWhile (fun char => (toDigit 10 char).isSome) = digits := by
    rw [List.takeWhile_append_of_pos (List.all_eq_true.mp hall)]
    cases rest with
    | nil => simp
    | cons char rest =>
        have hnone := h char rfl
        simp [hnone]
  have hhead : (digits ++ rest).head? = digits.head? := List.head?_append_of_ne_nil _ hne
  have hnot : ¬(digits = [] ∨ digits.length > 3) := by
    rw [not_or]
    exact ⟨hne, by omega⟩
  have hno : ¬((!false) = true ∧ digits.head? = some '0' ∧ digits.length > 1) := by
    intro hboth
    have := hzero hboth.2.1
    omega
  simp only [readNumber, htake, hhead]
  rw [if_neg hnot, if_neg hno, hnumber, if_pos octet.toNat_lt, List.drop_left]

theorem readOctet_first (octet : UInt8) {rest : List Char}
    (h : ∀ char ∈ rest.head?, toDigit 10 char = none) :
    readOctet 0 ((toString octet.toNat).toList ++ rest) = some (octet, rest) := by
  unfold readOctet readSeparator
  simp only [if_true, readNumber_octet octet h, Option.map_some, UInt8.ofNat_toNat]

theorem readOctet_next (octet : UInt8) {index : Nat} (hindex : index ≠ 0) {rest : List Char}
    (h : ∀ char ∈ rest.head?, toDigit 10 char = none) :
    readOctet index ('.' :: ((toString octet.toNat).toList ++ rest)) = some (octet, rest) := by
  unfold readOctet readSeparator
  rw [if_neg hindex]
  simp only [if_true, readNumber_octet octet h, Option.map_some, UInt8.ofNat_toNat]

theorem toList_text (addr : Ipv4Addr) : addr.text.toList =
    (toString addr.first.toNat).toList ++ '.' :: ((toString addr.second.toNat).toList ++
      '.' :: ((toString addr.third.toNat).toList ++ '.' :: ((toString addr.fourth.toNat).toList ++
        []))) := by
  simp [Ipv4Addr.text]

-- The address that a proxy writes is the one that is read.
theorem parseIpAddr_text (addr : Ipv4Addr) : parseIpAddr addr.text = some (.v4 addr) := by
  have hdot : ∀ rest : List Char, ∀ char ∈ ('.' :: rest).head?, toDigit 10 char = none := by
    intro rest char hchar
    cases hchar
    decide
  have hend : ∀ char ∈ ([] : List Char).head?, toDigit 10 char = none := by
    intro char hchar
    cases hchar
  have hread : readIpv4Addr addr.text.toList = some (addr, []) := by
    rw [readIpv4Addr, toList_text, readOctet_first addr.first (hdot _)]
    simp only [Option.bind_eq_bind, Option.bind_some]
    rw [readOctet_next addr.second (by decide) (hdot _), Option.bind_some,
      readOctet_next addr.third (by decide) (hdot _), Option.bind_some,
      readOctet_next addr.fourth (by decide) hend, Option.bind_some]
    rfl
  rw [parseIpAddr, hread]
  rfl

end RoundTrip

end RmqttThings.Access
