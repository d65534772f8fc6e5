import RmqttThings.Json
import Mathlib.Data.String.Basic

namespace RmqttThings

open Float.Model (UnpackedFloat)

namespace Number

theorem then_compare_eq {m m' : Nat} {e e' : Int} (h : (compare e e').then (compare m m') = .eq) :
    e = e' ∧ m = m' := by
  obtain ⟨he, hm⟩ := Ordering.then_eq_eq.mp h
  exact ⟨compare_eq_iff_eq.mp he, compare_eq_iff_eq.mp hm⟩

-- IEEE equality: the same number, or two zeros.
theorem eq_or_zero_of_compare {a b : UnpackedFloat} (h : a.compare b = some .eq) :
    a = b ∨ ∃ s t, a = .zero s ∧ b = .zero t := by
  rcases a with ⟨_ | _⟩ | _ | s | ⟨_ | _, m, e, hm⟩ <;>
    rcases b with ⟨_ | _⟩ | _ | t | ⟨_ | _, m', e', hm'⟩
  case zero.zero => exact .inr ⟨s, t, rfl, rfl⟩
  case finite.positive.finite.positive =>
    obtain ⟨rfl, rfl⟩ := then_compare_eq (Option.some.inj h)
    exact .inl rfl
  case finite.negative.finite.negative =>
    obtain ⟨rfl, rfl⟩ := then_compare_eq (Ordering.swap_eq_eq.mp (Option.some.inj h))
    exact .inl rfl
  all_goals first | exact .inl rfl | cases h

theorem compare_eq_comm {a b : UnpackedFloat} (h : a.compare b = some .eq) :
    b.compare a = some .eq := by
  rcases eq_or_zero_of_compare h with rfl | ⟨s, t, rfl, rfl⟩
  · exact h
  · rfl

theorem compare_eq_trans {a b c : UnpackedFloat} (h : a.compare b = some .eq)
    (h' : b.compare c = some .eq) :
    a.compare c = some .eq := by
  rcases eq_or_zero_of_compare h with rfl | ⟨s, t, rfl, rfl⟩
  · exact h'
  · rcases eq_or_zero_of_compare h' with rfl | ⟨_, u, -, rfl⟩ <;> rfl

theorem compare_self {a : UnpackedFloat} (h : a.isFinite = true) : a.compare a = some .eq := by
  rcases a with s | _ | s | ⟨_ | _, m, e, hm⟩
  · cases h
  · cases h
  · rfl
  · have heq : ((compare e e).then (compare m m)).swap = .eq := by simp
    exact congrArg some heq
  · have heq : (compare e e).then (compare m m) = .eq := by simp
    exact congrArg some heq

theorem float_beq_iff (a b : Float) :
    (a == b) = true ↔ a.toModel.unpack.compare b.toModel.unpack = some .eq := by
  show (a.toModel.unpack.compare b.toModel.unpack == some .eq) = true ↔ _
  exact beq_iff_eq

def finite : Number → Bool
  | posInt _ => true
  | negInt _ => true
  | float value => value.isFinite

theorem beq_comm {a b : Number} (h : (a == b) = true) : (b == a) = true := by
  cases a <;> cases b <;> simp only [BEq.beq, beq, Bool.false_eq_true] at h ⊢
  case posInt.posInt => simpa [eq_comm] using h
  case negInt.negInt => simpa [eq_comm] using h
  case float.float a b => exact (float_beq_iff b a).mpr (compare_eq_comm ((float_beq_iff a b).mp h))

theorem beq_trans {a b c : Number} (h : (a == b) = true) (h' : (b == c) = true) :
    (a == c) = true := by
  cases a <;> cases b <;> cases c <;> simp only [BEq.beq, beq, Bool.false_eq_true] at h h' ⊢
  case posInt.posInt.posInt => simp_all
  case negInt.negInt.negInt => simp_all
  case float.float.float a b c =>
    exact (float_beq_iff a c).mpr (compare_eq_trans ((float_beq_iff a b).mp h)
      ((float_beq_iff b c).mp h'))

theorem beq_self {a : Number} (h : a.finite = true) : (a == a) = true := by
  cases a <;> simp only [BEq.beq, beq]
  case posInt => simp
  case negInt => simp
  case float a => exact (float_beq_iff a a).mpr (compare_self h)

end Number

namespace Json

def isNull : Json → Bool
  | null => true
  | _ => false

mutual

-- A value that `serde_json` can hold: every number is finite, and the members of
-- every object are listed in key order.
def wellFormed : Json → Bool
  | number value => value.finite
  | array items => wellFormedItems items
  | object fields => wellFormedFields fields && decide (fields.Pairwise (·.1 < ·.1))
  | _ => true

def wellFormedItems : List Json → Bool
  | [] => true
  | item :: items => wellFormed item && wellFormedItems items

def wellFormedFields : List (String × Json) → Bool
  | [] => true
  | (_, value) :: fields => wellFormed value && wellFormedFields fields

end

mutual

theorem beq_comm : ∀ {a b : Json}, beq a b = true → beq b a = true
  | null, b, h => by cases b <;> simp_all [beq]
  | bool a, b, h => by cases b <;> simp_all [beq]
  | number a, b, h => by
      cases b <;> simp only [beq, Bool.false_eq_true] at h ⊢
      exact Number.beq_comm h
  | string a, b, h => by cases b <;> simp_all [beq]
  | array a, b, h => by
      cases b <;> simp only [beq, Bool.false_eq_true] at h ⊢
      exact beqItems_comm h
  | object a, b, h => by
      cases b <;> simp only [beq, Bool.false_eq_true] at h ⊢
      exact beqFields_comm h

theorem beqItems_comm : ∀ {a b : List Json}, beqItems a b = true → beqItems b a = true
  | [], b, h => by cases b <;> simp_all [beqItems]
  | a :: as, b, h => by
      cases b <;> simp only [beqItems, Bool.and_eq_true, Bool.false_eq_true] at h ⊢
      exact ⟨beq_comm h.1, beqItems_comm h.2⟩

theorem beqFields_comm : ∀ {a b : List (String × Json)}, beqFields a b = true → beqFields b a = true
  | [], b, h => by cases b <;> simp_all [beqFields]
  | (key, a) :: as, b, h => by
      cases b <;> simp only [beqFields, Bool.and_eq_true, Bool.false_eq_true] at h ⊢
      exact ⟨⟨beq_iff_eq.mpr (beq_iff_eq.mp h.1.1).symm, beq_comm h.1.2⟩, beqFields_comm h.2⟩

end

mutual

theorem beq_trans : ∀ {a b c : Json}, beq a b = true → beq b c = true → beq a c = true
  | null, b, c, h, h' => by cases b <;> cases c <;> simp_all [beq]
  | bool a, b, c, h, h' => by cases b <;> cases c <;> simp_all [beq]
  | number a, b, c, h, h' => by
      cases b <;> cases c <;> simp only [beq, Bool.false_eq_true] at h h' ⊢
      exact Number.beq_trans h h'
  | string a, b, c, h, h' => by cases b <;> cases c <;> simp_all [beq]
  | array a, b, c, h, h' => by
      cases b <;> cases c <;> simp only [beq, Bool.false_eq_true] at h h' ⊢
      exact beqItems_trans h h'
  | object a, b, c, h, h' => by
      cases b <;> cases c <;> simp only [beq, Bool.false_eq_true] at h h' ⊢
      exact beqFields_trans h h'

theorem beqItems_trans : ∀ {a b c : List Json}, beqItems a b = true → beqItems b c = true →
    beqItems a c = true
  | [], b, c, h, h' => by cases b <;> cases c <;> simp_all [beqItems]
  | a :: as, b, c, h, h' => by
      cases b <;> cases c <;> simp only [beqItems, Bool.and_eq_true, Bool.false_eq_true] at h h' ⊢
      exact ⟨beq_trans h.1 h'.1, beqItems_trans h.2 h'.2⟩

theorem beqFields_trans :
    ∀ {a b c : List (String × Json)}, beqFields a b = true → beqFields b c = true →
      beqFields a c = true
  | [], b, c, h, h' => by cases b <;> cases c <;> simp_all [beqFields]
  | (key, a) :: as, b, c, h, h' => by
      cases b <;> cases c <;> simp only [beqFields, Bool.and_eq_true, Bool.false_eq_true] at h h' ⊢
      exact ⟨⟨by simp_all, beq_trans h.1.2 h'.1.2⟩, beqFields_trans h.2 h'.2⟩

end

mutual

theorem beq_self : ∀ {a : Json}, a.wellFormed = true → beq a a = true
  | null, _ => rfl
  | bool _, _ => by simp [beq]
  | number _, h => Number.beq_self (by simpa [wellFormed] using h)
  | string _, _ => by simp [beq]
  | array _, h => beqItems_self (by simpa [wellFormed] using h)
  | object _, h => beqFields_self (by simp_all [wellFormed])

theorem beqItems_self : ∀ {a : List Json}, wellFormedItems a = true → beqItems a a = true
  | [], _ => rfl
  | a :: as, h => by
      simp only [wellFormedItems, Bool.and_eq_true] at h
      simp only [beqItems, Bool.and_eq_true]
      exact ⟨beq_self h.1, beqItems_self h.2⟩

theorem beqFields_self : ∀ {a : List (String × Json)}, wellFormedFields a = true →
    beqFields a a = true
  | [], _ => rfl
  | (key, a) :: as, h => by
      simp only [wellFormedFields, Bool.and_eq_true] at h
      simp only [beqFields, Bool.and_eq_true, BEq.rfl, true_and]
      exact ⟨beq_self h.1, beqFields_self h.2⟩

end

theorem wellFormedFields_iff (fields : List (String × Json)) :
    wellFormedFields fields = true ↔ ∀ field ∈ fields, field.2.wellFormed = true := by
  induction fields with
  | nil => simp [wellFormedFields]
  | cons field fields ih => simp [wellFormedFields, ih]

theorem wellFormed_object (fields : List (String × Json)) :
    (object fields).wellFormed = true ↔
      fields.Pairwise (·.1 < ·.1) ∧ ∀ field ∈ fields, field.2.wellFormed = true := by
  simp [wellFormed, wellFormedFields_iff, and_comm]

end Json

-- `BTreeMap::insert`: the key keeps its place in the order, with the new value.
def insertField (key : String) (value : Json) : List (String × Json) → List (String × Json)
  | [] => [(key, value)]
  | (other, old) :: fields =>
      if key < other then (key, value) :: (other, old) :: fields
      else if key = other then (key, value) :: fields
      else (other, old) :: insertField key value fields

-- `BTreeMap::remove`.
def removeField (key : String) (fields : List (String × Json)) : List (String × Json) :=
  fields.filter (·.1 != key)

theorem lookup_cons_eq (key first : String) (value : Json) (fields : List (String × Json)) :
    ((first, value) :: fields).lookup key = if key = first then some value else fields.lookup
      key := by
  by_cases h : key = first
  · simp [h]
  · have hne : (key == first) = false := by simpa using h
    simp [List.lookup_cons, hne, h]

theorem lookup_insertField (key other : String) (value : Json) (fields : List (String × Json)) :
    (insertField key value fields).lookup other = if other = key then some value else fields.lookup
      other := by
  induction fields with
  | nil => rw [insertField, lookup_cons_eq]
  | cons field fields ih =>
      obtain ⟨first, old⟩ := field
      simp only [insertField]
      by_cases hlt : key < first
      · rw [if_pos hlt, lookup_cons_eq]
      · by_cases heq : key = first
        · rw [if_neg hlt, if_pos heq, lookup_cons_eq, lookup_cons_eq, heq]
          split_ifs <;> rfl
        · rw [if_neg hlt, if_neg heq, lookup_cons_eq, lookup_cons_eq, ih]
          grind

theorem lookup_removeField (key other : String) (fields : List (String × Json)) :
    (removeField key fields).lookup other = if other = key then none else fields.lookup other := by
  induction fields with
  | nil => simp [removeField]
  | cons field fields ih =>
      obtain ⟨first, old⟩ := field
      simp only [removeField] at ih ⊢
      by_cases hfirst : first = key
      · rw [List.filter_cons_of_neg (by simp [hfirst]), ih, lookup_cons_eq]
        grind
      · rw [List.filter_cons_of_pos (by simp [hfirst]), lookup_cons_eq, ih, lookup_cons_eq]
        grind

theorem mem_insertField {key : String} {value : Json} {fields : List (String × Json)}
    {field : String × Json}
    (h : field ∈ insertField key value fields) : field = (key, value) ∨ field ∈ fields := by
  induction fields with
  | nil => simpa [insertField] using h
  | cons first fields ih =>
      simp only [insertField] at h
      split_ifs at h <;> grind

theorem wellFormed_insertField {key : String} {value : Json} {fields : List (String × Json)}
    (hvalue : value.wellFormed = true) (h : (Json.object fields).wellFormed = true) :
    (Json.object (insertField key value fields)).wellFormed = true := by
  rw [Json.wellFormed_object] at h ⊢
  constructor
  · have hsorted := h.1
    clear h
    induction fields with
    | nil => simp [insertField]
    | cons first fields ih =>
        rw [List.pairwise_cons] at hsorted
        simp only [insertField]
        split_ifs with hlt heq
        · refine List.pairwise_cons.mpr ⟨?_, List.pairwise_cons.mpr hsorted⟩
          intro field hfield
          rcases List.mem_cons.mp hfield with rfl | hmem
          · exact hlt
          · exact hlt.trans (hsorted.1 field hmem)
        · exact List.pairwise_cons.mpr ⟨by simpa [heq] using hsorted.1, hsorted.2⟩
        · refine List.pairwise_cons.mpr ⟨?_, ih hsorted.2⟩
          intro field hfield
          rcases mem_insertField hfield with rfl | hmem
          · exact lt_of_le_of_ne (not_lt.mp hlt) (Ne.symm heq)
          · exact hsorted.1 field hmem
  · intro field hfield
    rcases mem_insertField hfield with rfl | hmem
    · exact hvalue
    · exact h.2 field hmem

theorem wellFormed_removeField {key : String} {fields : List (String × Json)}
    (h : (Json.object fields).wellFormed = true) :
    (Json.object (removeField key fields)).wellFormed = true := by
  rw [Json.wellFormed_object] at h ⊢
  exact ⟨h.1.filter _, fun field hfield => h.2 field (List.mem_of_mem_filter hfield)⟩

-- `serde_json::Map<String, Value>`.
structure JsonMap where
  fields : List (String × Json)
  wellFormed : (Json.object fields).wellFormed = true

namespace JsonMap

def empty : JsonMap := ⟨[], rfl⟩

instance : Inhabited JsonMap := ⟨empty⟩

def isEmpty (map : JsonMap) : Bool := map.fields.isEmpty

def get (map : JsonMap) (key : String) : Option Json := map.fields.lookup key

-- `Value::Object`, and `Value::as_object`. Every object of `serde_json` is well formed.
def toJson (map : JsonMap) : Json := .object map.fields

def ofJson : Json → Option JsonMap
  | .object fields => if h : (Json.object fields).wellFormed = true then some ⟨fields, h⟩ else none
  | _ => none

@[simp] theorem ofJson_toJson (map : JsonMap) : ofJson map.toJson = some map := by
  simp [toJson, ofJson, map.wellFormed]

@[simp] theorem get_empty (key : String) : empty.get key = none := rfl

theorem sorted (map : JsonMap) : map.fields.Pairwise (·.1 < ·.1) :=
  ((Json.wellFormed_object _).mp map.wellFormed).1

theorem wellFormed_value (map : JsonMap) {key : String} {value : Json}
    (h : (key, value) ∈ map.fields) :
    value.wellFormed = true :=
  ((Json.wellFormed_object _).mp map.wellFormed).2 _ h

theorem lookup_eq_some_iff {fields : List (String × Json)} (hsorted : fields.Pairwise (·.1 < ·.1))
    (key : String) (value : Json) : fields.lookup key = some value ↔ (key, value) ∈ fields := by
  induction fields with
  | nil => simp
  | cons field fields ih =>
      obtain ⟨first, old⟩ := field
      rw [List.pairwise_cons] at hsorted
      rw [lookup_cons_eq]
      by_cases he : key = first
      · subst he
        have hnot : (key, value) ∉ fields := fun hmem => lt_irrefl key (hsorted.1 _ hmem)
        simp [hnot, eq_comm]
      · simp [ih hsorted.2, he]

theorem get_eq_some_iff (map : JsonMap) (key : String) (value : Json) :
    map.get key = some value ↔ (key, value) ∈ map.fields := lookup_eq_some_iff map.sorted key value

theorem isEmpty_iff (map : JsonMap) : map.isEmpty = true ↔ ∀ key, map.get key = none := by
  rw [isEmpty, List.isEmpty_iff]
  constructor
  · intro h key
    simp [get, h]
  · intro h
    rw [List.eq_nil_iff_forall_not_mem]
    rintro ⟨key, value⟩ hmem
    have hget := (map.get_eq_some_iff key value).mpr hmem
    simp [h] at hget

end JsonMap

end RmqttThings
