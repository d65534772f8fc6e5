import Mathlib.Data.List.Nodup
import Mathlib.Data.List.Perm.Basic

namespace Js

-- What a document or an object literal evaluates to.
inductive Value where
  | undefined
  | null
  | boolean (value : Bool)
  | number (value : Float)
  | string (value : String)
  | array (items : List Value)
  | object (own : List (String × Value))

abbrev Entry := String × Value

-- The enumerable properties. An object without a prototype inherits `none`.
structure Object where
  own : List Entry
  distinct : (own.map Prod.fst).Nodup
  inherited : Option (List Entry)

-- `WhiteSpace` and `LineTerminator`.
def isSpace (c : Char) : Bool :=
  (0x09 ≤ c.toNat && c.toNat ≤ 0x0D) || (0x2000 ≤ c.toNat && c.toNat ≤ 0x200A) ||
    [0x20, 0xA0, 0x1680, 0x2028, 0x2029, 0x202F, 0x205F, 0x3000, 0xFEFF].contains c.toNat

def trim (text : String) : String :=
  String.ofList ((text.toList.dropWhile isSpace).reverse.dropWhile isSpace).reverse

def names (entries : List Entry) : List String := entries.map Prod.fst

def protoName : String := "__proto__"

def addDigit (number : Nat) (c : Char) :
    Option Nat := if c.isDigit then some (10 * number + (c.toNat - '0'.toNat)) else none

-- A canonical numeral below `2^32 - 1`.
def arrayIndex (name : String) : Option Nat :=
  (name.toList.foldlM addDigit 0).filter fun index => toString index = name ∧ index < 4294967295

example : arrayIndex "10" = some 10 ∧ arrayIndex "010" = none ∧ arrayIndex "10x" = none := by decide

def precedes (index : Nat) (entry : Entry) : Bool := (arrayIndex entry.1).any (· < index)

-- Array indices come first and in their order, other names in the order of their creation.
def place (own : List Entry) (entry : Entry) : List Entry :=
  if entry.1 ∈ names own then own.map fun old => if old.1 = entry.1 then entry else old
  else match arrayIndex entry.1 with
    | some index => own.takeWhile (precedes index) ++ entry :: own.dropWhile (precedes index)
    | none => own ++ [entry]

section Place

variable {own : List Entry} {entry : Entry}

theorem names_place_of_mem (h : entry.1 ∈ names own) : names (place own entry) = names own := by
  rw [place, if_pos h, names, List.map_map]
  apply List.map_congr_left
  intro old _
  by_cases hname : old.1 = entry.1
  · simp [hname]
  · simp [hname]

theorem place_perm (h : entry.1 ∉ names own) : (place own entry).Perm (own ++ [entry]) := by
  rw [place, if_neg h]
  cases arrayIndex entry.1 with
  | none => exact .refl _
  | some index =>
      have hmiddle : (own.takeWhile (precedes index) ++ entry :: own.dropWhile
          (precedes index)).Perm
          (entry :: (own.takeWhile (precedes index) ++ own.dropWhile (precedes index))) :=
            List.perm_middle
      rw [List.takeWhile_append_dropWhile] at hmiddle
      exact hmiddle.trans (List.perm_append_singleton _ _).symm

theorem names_place_perm (h : entry.1 ∉ names own) :
    (names (place own entry)).Perm (names own ++ [entry.1]) := by
  have hmap := (place_perm h).map Prod.fst
  rwa [List.map_append] at hmap

theorem distinct_place (h : (names own).Nodup) : (names (place own entry)).Nodup := by
  by_cases hmem : entry.1 ∈ names own
  · rwa [names_place_of_mem hmem]
  · rw [(names_place_perm hmem).nodup_iff, List.nodup_append]
    refine ⟨h, List.nodup_singleton _, ?_⟩
    rintro name hname _ hlast rfl
    exact hmem (List.mem_singleton.mp hlast ▸ hname)

end Place

namespace Object

-- An object literal without properties.
def empty : Object := ⟨[], .nil, some []⟩

def keys (object : Object) : List String := names object.own

-- A computed property of a literal, a spread property, an entry of `Object.fromEntries`.
def define (object : Object) (entry : Entry) : Object where
  own := place object.own entry
  distinct := distinct_place object.distinct
  inherited := object.inherited

def defineAll (object : Object) (entries : List Entry) : Object := entries.foldl define object

def fromEntries (entries : List Entry) : Object := empty.defineAll entries

-- A literal that spreads the object.
def spread (object : Object) : Object := fromEntries object.own

def setPrototype (object : Object) : Value → Object
  | .object own => { object with inherited := some own }
  | .array items =>
      { object with inherited := some (items.zipIdx.map fun item => (toString item.2, item.1)) }
  | .null => { object with inherited := none }
  | _ => object

-- `__proto__` is an accessor that every object has which `Object.prototype` ends in, until a
-- property hides it.
def isAccessor (object : Object) (name : String) : Prop :=
  name = protoName ∧ name ∉ object.keys ∧ object.inherited.any (protoName ∉ names ·)

instance (object : Object) (name : String) : Decidable (object.isAccessor name) :=
  inferInstanceAs (Decidable (_ ∧ _))

-- `object[name] = value`.
def assign (object : Object) (entry : Entry) : Object :=
  if object.isAccessor entry.1 then object.setPrototype entry.2 else object.define entry

def assignAll (object : Object) (entries : List Entry) : Object := entries.foldl assign object

def delete (object : Object) (name : String) : Object where
  own := object.own.filter (·.1 ≠ name)
  distinct := (object.distinct.sublist ((List.filter_sublist (l := object.own)).map Prod.fst))
  inherited := object.inherited

-- What `for (const name in object)` visits.
def forIn (object : Object) : List Entry :=
  object.own ++ (object.inherited.getD []).filter (·.1 ∉ object.keys)

section Lists

variable {object : Object} {entries : List Entry}

theorem define_own (object : Object) (entry : Entry) :
    (object.define entry).own = place object.own entry := rfl

theorem keys_define_perm {entry : Entry} (h : entry.1 ∉ object.keys) :
    (object.define entry).keys.Perm (object.keys ++ [entry.1]) :=
  names_place_perm h

-- New names are added, each with its value.
theorem defineAll_perm (h : (object.keys ++ names entries).Nodup) :
    (object.defineAll entries).own.Perm (object.own ++ entries) := by
  induction entries generalizing object with
  | nil => rw [List.append_nil]; exact .refl _
  | cons entry entries ih =>
      have hfresh : entry.1 ∉ object.keys := by
        intro hmem
        exact (List.nodup_append.mp h).2.2 _ hmem _ List.mem_cons_self rfl
      have hkeys : (object.keys ++ entry.1 :: names entries).Perm ((object.define entry).keys ++
          names entries) := by
        have hperm := (keys_define_perm hfresh).symm.append_right (names entries)
        rwa [List.append_assoc] at hperm
      have hrest := ih (hkeys.nodup_iff.mp h)
      have hfirst := (place_perm hfresh).append_right entries
      rw [List.append_assoc] at hfirst
      exact hrest.trans hfirst

theorem fromEntries_perm (h : (names entries).Nodup) : (fromEntries entries).own.Perm entries :=
  defineAll_perm h

theorem spread_perm (object : Object) : object.spread.own.Perm object.own :=
  fromEntries_perm object.distinct

theorem inherited_defineAll (object : Object) (entries : List Entry) :
    (object.defineAll entries).inherited = object.inherited := by
  induction entries generalizing object with
  | nil => rfl
  | cons entry entries ih => exact ih (object.define entry)

theorem length_define_of_mem {entry : Entry} (h : entry.1 ∈ object.keys) :
    (object.define entry).own.length = object.own.length := by
  have hnames := congrArg List.length (names_place_of_mem h)
  rwa [names, names, List.length_map, List.length_map] at hnames

theorem length_define_of_not_mem {entry : Entry} (h : entry.1 ∉ object.keys) :
    (object.define entry).own.length = object.own.length + 1 := by
  rw [define_own, (place_perm h).length_eq, List.length_append, List.length_singleton]

theorem length_assign_le (object : Object) (entry : Entry) :
    (object.assign entry).own.length ≤ object.own.length + 1 := by
  unfold assign
  split_ifs
  · cases entry.2 <;> exact Nat.le_succ _
  · by_cases hmem : entry.1 ∈ object.keys
    · rw [length_define_of_mem hmem]
      exact Nat.le_succ _
    · exact Nat.le_of_eq (length_define_of_not_mem hmem)

theorem length_assignAll_le (object : Object) (entries : List Entry) :
    (object.assignAll entries).own.length ≤ object.own.length + entries.length := by
  induction entries generalizing object with
  | nil => exact Nat.le_refl _
  | cons entry entries ih =>
      have hrest := ih (object.assign entry)
      have hfirst := length_assign_le object entry
      rw [List.length_cons]
      exact Nat.le_trans hrest (by omega)

theorem assign_of_ne {entry : Entry} (h : entry.1 ≠ protoName) :
    object.assign entry = object.define entry :=
  if_neg fun haccessor => h haccessor.1

theorem assignAll_eq_defineAll (h : protoName ∉ names entries) :
    object.assignAll entries = object.defineAll entries := by
  induction entries generalizing object with
  | nil => rfl
  | cons entry entries ih =>
      rw [names, List.map_cons, List.mem_cons, not_or] at h
      rw [assignAll, List.foldl_cons, assign_of_ne (Ne.symm h.1)]
      exact ih h.2

-- The first assignment of a name that is there or is that of the accessor adds no property.
theorem length_assign_eq {entry : Entry} (hplain : object.inherited = some [])
    (h : entry.1 ∈ object.keys ∨ entry.1 = protoName) :
    (object.assign entry).own.length = object.own.length := by
  by_cases hmem : entry.1 ∈ object.keys
  · have hassign : object.assign entry = object.define entry :=
      if_neg fun haccessor => haccessor.2.1 hmem
    rw [hassign, length_define_of_mem hmem]
  · have hname := h.resolve_left hmem
    have haccessor : object.isAccessor entry.1 := ⟨hname, hmem, by rw [hplain]; rfl⟩
    rw [assign, if_pos haccessor]
    cases entry.2 <;> rfl

-- Every assignment adds a property exactly if the names are new, and none is that of the accessor.
theorem length_assignAll_eq_iff (hplain : object.inherited = some []) :
    (object.assignAll entries).own.length = object.own.length + entries.length ↔
      (object.keys ++ names entries).Nodup ∧ protoName ∉ names entries := by
  constructor
  · intro h
    induction entries generalizing object with
    | nil =>
        rw [names, List.map_nil, List.append_nil]
        exact ⟨object.distinct, List.not_mem_nil⟩
    | cons entry entries ih =>
        have hrest := length_assignAll_le (object.assign entry) entries
        change ((object.assign entry).assignAll entries).own.length = _ at h
        rw [List.length_cons] at h
        have hnew : ¬(entry.1 ∈ object.keys ∨ entry.1 = protoName) := by
          intro hold
          have hsame := length_assign_eq hplain hold
          omega
        obtain ⟨hfresh, hname⟩ := not_or.mp hnew
        rw [assign_of_ne hname] at h
        have hone := length_define_of_not_mem hfresh
        obtain ⟨hnodup, hproto⟩ :=
          ih (show (object.define entry).inherited = some [] from hplain) (by omega)
        have hkeys := (keys_define_perm hfresh).append_right (names entries)
        rw [List.append_assoc] at hkeys
        refine ⟨hkeys.nodup_iff.mp hnodup, ?_⟩
        rw [names, List.map_cons, List.mem_cons, not_or]
        exact ⟨Ne.symm hname, hproto⟩
  · rintro ⟨hnodup, hproto⟩
    rw [assignAll_eq_defineAll hproto, (defineAll_perm hnodup).length_eq, List.length_append]

end Lists

end Object

end Js
