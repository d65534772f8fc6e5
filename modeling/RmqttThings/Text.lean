import Mathlib.Data.List.DropRight
import Mathlib.Data.List.TakeWhile

namespace RmqttThings

theorem findSome?_congr {α β : Type} {f g : α → Option β} {items : List α}
    (h : ∀ item ∈ items, f item = g item) :
    items.findSome? f = items.findSome? g := by
  induction items with
  | nil => rfl
  | cons item items ih =>
      rw [List.findSome?_cons, List.findSome?_cons, h item List.mem_cons_self,
        ih fun other hmem => h other (List.mem_cons_of_mem _ hmem)]

-- `char::is_whitespace`.
def isWhitespace (char : Char) : Bool :=
  (0x09 ≤ char.toNat && char.toNat ≤ 0x0D) || (0x2000 ≤ char.toNat && char.toNat ≤ 0x200A) ||
    [0x20, 0x85, 0xA0, 0x1680, 0x2028, 0x2029, 0x202F, 0x205F, 0x3000].contains char.toNat

-- `str::trim`.
def trim (text : String) : String :=
  String.ofList ((text.toList.dropWhile isWhitespace).rdropWhile isWhitespace)

-- `str::as_bytes`.
def utf8Bytes (text : String) : List UInt8 := text.toUTF8.data.toList

theorem utf8Bytes_eq_flatMap (text : String) :
    utf8Bytes text = text.toList.flatMap String.utf8EncodeChar := by
  rw [utf8Bytes, String.toUTF8_eq_toByteArray, ← String.utf8Encode_toList, List.utf8Encode,
    List.toList_data_toByteArray]

-- A character that a cookie or an address may be written with.
def isVisible (char : Char) : Bool := 33 ≤ char.toNat && char.toNat < 127

theorem isWhitespace_of_isVisible {char : Char} (h : isVisible char = true) :
    isWhitespace char = false := by
  simp only [isVisible, Bool.and_eq_true, decide_eq_true_eq] at h
  have hlist : char.toNat ∉ [0x20, 0x85, 0xA0, 0x1680, 0x2028, 0x2029, 0x202F, 0x205F, 0x3000] := by
    simp only [List.mem_cons, List.not_mem_nil, or_false]
    omega
  rw [isWhitespace, List.contains_eq_mem]
  simp only [hlist, decide_false, Bool.or_false, Bool.or_eq_false_iff, Bool.and_eq_false_iff,
    decide_eq_false_iff_not]
  omega

-- Spaces before a text without any are dropped.
theorem trim_spaces {text : List Char} (h : ∀ char ∈ text, isVisible char = true) (count : Nat) :
    trim (String.ofList (List.replicate count ' ' ++ text)) = String.ofList text := by
  have hspaces : ∀ char ∈ List.replicate count ' ', isWhitespace char = true := by
    intro char hmem
    rw [List.eq_of_mem_replicate hmem]
    rfl
  have hfront : (List.replicate count ' ' ++ text).dropWhile isWhitespace = text := by
    rw [List.dropWhile_append_of_pos hspaces]
    cases text with
    | nil => rfl
    | cons char text =>
        rw [List.dropWhile_cons_of_neg]
        rw [isWhitespace_of_isVisible (h char List.mem_cons_self)]
        exact Bool.false_ne_true
  have hback : text.rdropWhile isWhitespace = text := by
    rw [List.rdropWhile_eq_self_iff]
    intro hne
    rw [isWhitespace_of_isVisible (h _ (List.getLast_mem hne))]
    exact Bool.false_ne_true
  rw [trim, String.toList_ofList, hfront, hback]

end RmqttThings
