import RmqttThings.Api.AlarmModels
import RmqttThings.JsonMap
import RmqttThings.RuleEngine.Comparison

namespace RmqttThings.Api

open Binary64 RuleEngine
open RuleEngine.RuleEvaluator

section Texts

variable {text : String}

theorem parseF64_empty : parseF64 "" = none := by decide +kernel

theorem parseF64_x : parseF64 "x" = none := by decide +kernel

theorem digit_lt_x {char : Char} (h : char.isDigit = true) : char < 'x' := by
  simp only [Char.isDigit, Bool.and_eq_true, decide_eq_true_eq] at h
  exact lt_of_le_of_lt h.2 (by decide)

-- A number starts with a digit or a point.
theorem number_first {chars : List Char} {y : Float} (h : ParseF64.number chars = some y) :
    ∃ char rest, chars = char :: rest ∧ char < 'x' := by
  cases chars with
  | nil => simp [ParseF64.number, List.span_eq_takeWhile_dropWhile] at h
  | cons char rest =>
      refine ⟨char, rest, rfl, ?_⟩
      by_cases hdigit : char.isDigit = true
      · exact digit_lt_x hdigit
      · by_cases hpoint : char = '.'
        · subst hpoint
          decide
        · simp [ParseF64.number, List.span_eq_takeWhile_dropWhile, hdigit, hpoint] at h

theorem toLower_of_x_le {char : Char} (h : 'x' ≤ char) : char.toLower = char :=
  dif_neg fun hupper => absurd (h.trans hupper.2) (by decide)

theorem sign_of_x_le {char : Char} (h : 'x' ≤ char) (rest : List Char) :
    ParseF64.sign (char :: rest) = (false, char :: rest) := by
  have hminus : char ≠ '-' := by
    rintro rfl
    exact absurd h (by decide)
  have hplus : char ≠ '+' := by
    rintro rfl
    exact absurd h (by decide)
  simp [ParseF64.sign, hminus, hplus]

-- What parses as a number comes before the letter x.
theorem lt_x_of_parseF64 {y : Float} (h : parseF64 text = some y) : text < "x" := by
  have hx : "x".toList = ['x'] := rfl
  rw [String.lt_iff_toList_lt, hx]
  cases hchars : text.toList with
  | nil => decide
  | cons char rest =>
      refine List.cons_lt_cons_iff.mpr (.inl ?_)
      by_contra hge
      rw [not_lt] at hge
      -- No word starts with such a letter, and no number does.
      have hword (word : Char) (letters : List Char) (hlt : word < 'x') :
          String.ofList ((char :: rest).map Char.toLower) ≠ String.ofList (word :: letters) := by
        intro heq
        have hlist := congrArg String.toList heq
        simp only [List.map_cons, toLower_of_x_le hge, String.toList_ofList,
          List.cons.injEq] at hlist
        rw [hlist.1] at hge
        exact absurd hlt (not_lt.mpr hge)
      simp only [parseF64, hchars, sign_of_x_le hge] at h
      obtain ⟨value, hnumber, -⟩ := Option.map_eq_some_iff.mp h
      split at hnumber
      · rename_i heq
        exact hword 'i' ['n', 'f'] (by decide) heq
      · rename_i heq
        exact hword 'i' ['n', 'f', 'i', 'n', 'i', 't', 'y'] (by decide) heq
      · rename_i heq
        exact hword 'n' ['a', 'n'] (by decide) heq
      · obtain ⟨first, _, hfirst, hlt⟩ := number_first hnumber
        rw [(List.cons.inj hfirst).1] at hge
        exact absurd hlt (not_lt.mpr hge)

end Texts

section Operands

def isScalar : Json → Bool
  | .number _ => true
  | .string _ => true
  | _ => false

def isEmptyText : Json → Bool
  | .string text => text == ""
  | _ => false

-- A text such as `inf` or `NaN`.
def isNonFiniteText : Json → Bool
  | .string text => (parseF64 text).any fun number => !number.isFinite
  | _ => false

-- No value lies between bounds that are no numbers, or in the wrong order.
def orderedBounds (condition : Json) : Bool :=
  match (condition.get "min").bind jsonToF64, (condition.get "max").bind jsonToF64 with
  | some low, some high => decide (low ≤ high)
  | _, _ => false

-- The operands with which the operator can be true.
def hasOperands (condition : Json) : Bool :=
  match (condition.get "operator").bind Json.asStr with
  | some ">" => (condition.get "value").any isScalar
  | some ">=" => (condition.get "value").any isScalar
  | some "<" =>
      (condition.get "value").any fun threshold => isScalar threshold && !isEmptyText threshold
  | some "<=" => (condition.get "value").any isScalar
  | some "==" => (condition.get "value").any fun expected => !isNonFiniteText expected
  | some "!=" => (condition.get "value").isSome
  | some "between" => orderedBounds condition
  | some "contains" => ((condition.get "value").bind Json.asStr).isSome
  | _ => true

-- Some value makes the test true.
def Fires (test : Json → Bool) : Prop := ∃ actual, actual.wellFormed = true ∧ test actual = true

end Operands

section Ordered

variable {condition threshold actual : Json} {numOp : Float → Float → Bool}
  {strOp : String → String → Bool} {x y : Float}

theorem ordered_text {text other : String} (hvalue : condition.get "value" = some (.string text))
    (h : parseF64 other = none ∨ parseF64 text = none) :
    compareOrdered condition (.string other) numOp strOp = strOp other text := by
  have hnone : compareF64 (.string other) (.string text) numOp = none := by
    rcases h with h | h
    · simp [compareF64, jsonToF64, h]
    · cases hother : parseF64 other <;> simp [compareF64, jsonToF64, h, hother]
  simp [compareOrdered, hvalue, hnone, compareStr, Json.asStr]

theorem ordered_other (h : (condition.get "value").any isScalar = false) :
    compareOrdered condition actual numOp strOp = false := by
  cases hvalue : condition.get "value" with
  | none => simp [compareOrdered, hvalue]
  | some threshold =>
      rw [hvalue, Option.any_some] at h
      have hnumber : jsonToF64 threshold = none := by cases threshold <;> first | rfl | cases h
      have htext : threshold.asStr = none := by cases threshold <;> first | rfl | cases h
      cases hx : jsonToF64 actual <;> cases ha : actual.asStr <;>
        simp [compareOrdered, hvalue, compareF64, compareStr, hnumber, htext, hx, ha]

theorem finite_place {number : Number} (h : number.finite = true) :
    ∃ u, place number.asF64 = some (Place.of u) := by
  cases number with
  | posInt value => exact ⟨_, place_toFloat value⟩
  | negInt value => exact ⟨_, @place_integer (.negInt value) _ rfl⟩
  | float value => exact (isFinite_iff value).mp h

theorem jsonToF64_inf : ∃ x, jsonToF64 (.string "inf") = some x ∧ place x = some ⊤ := ⟨_, rfl, rfl⟩

theorem jsonToF64_neg_inf : ∃ x, jsonToF64 (.string "-inf") = some x ∧ place x = some ⊥ :=
  ⟨_, rfl, rfl⟩

-- A comparison fires if it does for every number, and for the text that it is given.
theorem ordered_fires (hvalue : condition.get "value" = some threshold)
    (hwellFormed : threshold.wellFormed = true) (hscalar : isScalar threshold = true)
    (hnumber : ∀ y u, place y = some (Place.of u) →
      ∃ actual x, actual.wellFormed = true ∧ jsonToF64 actual = some x ∧ numOp x y = true)
    (htext : ∀ text, threshold = .string text →
      ∃ other, (parseF64 other = none ∨ parseF64 text = none) ∧ strOp other text = true) :
    Fires fun actual => compareOrdered condition actual numOp strOp := by
  cases threshold with
  | number number =>
      obtain ⟨u, hu⟩ := finite_place hwellFormed
      obtain ⟨actual, x, hactual, hx, hop⟩ := hnumber _ u hu
      exact ⟨actual, hactual, (compareOrdered_number hx rfl hvalue numOp strOp).trans hop⟩
  | string text =>
      obtain ⟨other, hparse, hop⟩ := htext text rfl
      exact ⟨.string other, rfl, (ordered_text hvalue hparse).trans hop⟩
  | _ => cases hscalar

-- Every finite number is the value of a JSON number.
theorem exists_json (h : ∃ u, place y = some (Place.of u)) :
    ∃ actual : Json, actual.wellFormed = true ∧ jsonToF64 actual = some y :=
  ⟨.number (.float y), (isFinite_iff y).mpr h, rfl⟩

theorem lt_append_x (text : String) : text < text ++ "x" := by
  rw [String.lt_iff_toList_lt, String.toList_append]
  induction text.toList with
  | nil => decide
  | cons char rest ih => exact List.cons_lt_cons_iff.mpr (.inr ⟨rfl, ih⟩)

theorem not_lt_empty (text : String) : ¬text < "" := by
  rw [String.lt_iff_toList_lt]
  exact List.not_lt_nil _

theorem empty_lt {text : String} (h : text ≠ "") : "" < text := by
  rw [String.lt_iff_toList_lt]
  cases hchars : text.toList with
  | nil => exact absurd (String.toList_inj.mp hchars) h
  | cons char rest => exact List.nil_lt_cons char rest

theorem isScalar_of_fires (h : Fires fun actual => compareOrdered condition actual numOp strOp) :
    (condition.get "value").any isScalar = true := by
  obtain ⟨actual, -, htrue⟩ := h
  by_contra hother
  have hfalse : compareOrdered condition actual numOp strOp = false :=
    ordered_other (Bool.eq_false_iff.mpr hother)
  exact absurd (hfalse.symm.trans htrue) (by decide)

variable (condition) in
-- The condition is one that `serde_json` can hold.
def WellFormedMembers : Prop :=
  ∀ key value, condition.get key = some value → value.wellFormed = true

theorem ordered_fires_iff (h : WellFormedMembers condition)
    (hnumber : ∀ y u, place y = some (Place.of u) →
      ∃ actual x, actual.wellFormed = true ∧ jsonToF64 actual = some x ∧ numOp x y = true)
    (htext : ∀ text, ∃ other, (parseF64 other = none ∨ parseF64 text = none) ∧
      strOp other text = true) :
    Fires (fun actual => compareOrdered condition actual numOp strOp) ↔
      (condition.get "value").any isScalar = true := by
  refine ⟨isScalar_of_fires, fun hscalar => ?_⟩
  obtain ⟨threshold, hvalue, hscalar⟩ := (Option.any_eq_true _ _).mp hscalar
  exact ordered_fires hvalue (h _ _ hvalue) hscalar hnumber fun text _ => htext text

theorem greater_fires_iff (h : WellFormedMembers condition) :
    Fires (fun actual => compareOrdered condition actual (fun a b => decide (a > b)) fun a b =>
      decide (b < a)) ↔
      (condition.get "value").any isScalar = true := by
  refine ordered_fires_iff h (fun y u hy => ?_) fun text => ?_
  · obtain ⟨x, hx, hplace⟩ := jsonToF64_inf
    exact ⟨.string "inf", x, rfl, hx,
      decide_eq_true ((lt_iff_of_place hy hplace).mpr Place.of_lt_top)⟩
  · cases hparse : parseF64 text with
    | none => exact ⟨text ++ "x", .inr rfl, decide_eq_true (lt_append_x text)⟩
    | some y => exact ⟨"x", .inl parseF64_x, decide_eq_true (lt_x_of_parseF64 hparse)⟩

theorem atLeast_fires_iff (h : WellFormedMembers condition) :
    Fires (fun actual => compareOrdered condition actual (fun a b => decide (a ≥ b)) fun a b =>
      !decide (a < b)) ↔
      (condition.get "value").any isScalar = true := by
  refine ordered_fires_iff h (fun y u hy => ?_) fun text => ?_
  · obtain ⟨actual, hactual, hjson⟩ := exists_json ⟨u, hy⟩
    exact ⟨actual, y, hactual, hjson, decide_eq_true ((le_iff_of_place hy hy).mpr le_rfl)⟩
  · cases hparse : parseF64 text with
    | none => exact ⟨text, .inr rfl, by simp⟩
    | some y => exact ⟨"x", .inl parseF64_x, by simp [(lt_x_of_parseF64 hparse).not_gt]⟩

theorem atMost_fires_iff (h : WellFormedMembers condition) :
    Fires (fun actual => compareOrdered condition actual (fun a b => decide (a ≤ b)) fun a b =>
      !decide (b < a)) ↔
      (condition.get "value").any isScalar = true := by
  refine ordered_fires_iff h (fun y u hy => ?_) fun text => ?_
  · obtain ⟨actual, hactual, hjson⟩ := exists_json ⟨u, hy⟩
    exact ⟨actual, y, hactual, hjson, decide_eq_true ((le_iff_of_place hy hy).mpr le_rfl)⟩
  · refine ⟨"", .inl parseF64_empty, ?_⟩
    rw [decide_eq_false (not_lt_empty text)]
    rfl

-- No text is less than the empty one, and the empty one is no number.
theorem not_less_empty (hvalue : condition.get "value" = some (.string "")) (actual : Json) :
    compareOrdered condition actual (fun a b => decide (a < b)) (fun a b => decide (a < b)) =
      false := by
  have hnumber : compareF64 actual (.string "") (fun a b => decide (a < b)) = none := by
    cases jsonToF64 actual <;> simp [compareF64, jsonToF64, parseF64_empty]
  have htext : (compareStr actual (.string "") (fun a b => decide (a < b))).getD false = false := by
    cases actual with
    | string other => exact decide_eq_false (not_lt_empty other)
    | _ => rfl
  simp only [compareOrdered, hvalue, hnumber]
  exact htext

theorem less_fires_iff (h : WellFormedMembers condition) :
    Fires (fun actual => compareOrdered condition actual (fun a b => decide (a < b)) fun a b =>
      decide (a < b)) ↔
      (condition.get "value").any (fun threshold => isScalar threshold && !isEmptyText threshold) =
        true := by
  constructor
  · intro hfires
    obtain ⟨threshold, hvalue, hscalar⟩ := (Option.any_eq_true _ _).mp (isScalar_of_fires hfires)
    obtain ⟨actual, -, htrue⟩ := hfires
    have hnonempty : isEmptyText threshold = false := by
      by_contra hempty
      cases threshold with
      | string text =>
          obtain rfl : text = "" := by simpa [isEmptyText] using hempty
          exact absurd ((not_less_empty hvalue actual).symm.trans htrue) (by decide)
      | _ => exact hempty rfl
    rw [hvalue, Option.any_some, hscalar, hnonempty]
    rfl
  · intro hoperand
    obtain ⟨threshold, hvalue, hoperand⟩ := (Option.any_eq_true _ _).mp hoperand
    obtain ⟨hscalar, hempty⟩ := Bool.and_eq_true_iff.mp hoperand
    refine ordered_fires hvalue (h _ _ hvalue) hscalar (fun y u hy => ?_) fun text htext => ?_
    · obtain ⟨x, hx, hplace⟩ := jsonToF64_neg_inf
      exact ⟨.string "-inf", x, rfl, hx,
        decide_eq_true ((lt_iff_of_place hplace hy).mpr Place.bot_lt_of)⟩
    · have hne : text ≠ "" := by
        rintro rfl
        simp [htext, isEmptyText] at hempty
      exact ⟨"", .inl parseF64_empty, decide_eq_true (empty_lt hne)⟩

end Ordered

section Equality

variable {condition expected actual : Json} {x y : Float}

theorem equal_same (h : ∃ u, place x = some (Place.of u)) :
    decide ((x - x).abs < f64Epsilon) = true := by
  obtain ⟨u, hu⟩ := h
  exact decide_eq_true ((abs_sub_lt_iff place_f64Epsilon (by decide) hu hu).mpr (near_self 968 u))

-- No number is close to an infinity or a NaN.
theorem not_equal_nonFinite (hy : y.isFinite = false) : ¬(x - y).abs < f64Epsilon := by
  intro hlt
  have hnone : ¬∃ u, place y = some (Place.of u) := by
    rw [← isFinite_iff, hy]
    decide
  obtain ⟨p, q, hp, hq⟩ := places_of_abs_sub_lt hlt
  obtain ⟨u, v, -, rfl, -⟩ := (abs_sub_lt_iff place_f64Epsilon (by decide) hp hq).mp hlt
  exact hnone ⟨v, hq⟩

abbrev equal (condition actual : Json) : Bool :=
  compareEqual condition actual (fun a b => decide ((a - b).abs < f64Epsilon)) (fun a b => a == b)
    fun a b => a == b

theorem not_equal_nonFiniteText (hvalue : condition.get "value" = some expected)
    (h : isNonFiniteText expected = true) :
    equal condition actual = false := by
  cases expected with
  | string text =>
      obtain ⟨y, hparse, hy⟩ := (Option.any_eq_true _ _).mp h
      have hnumber : jsonToF64 (.string text) = some y := hparse
      rw [Bool.not_eq_true'] at hy
      cases hx : jsonToF64 actual with
      | some x =>
          exact (compareEqual_number hx hnumber hvalue _ _ _).trans
            (decide_eq_false (not_equal_nonFinite hy))
      | none =>
          cases actual with
          | number value => cases hx
          | string other =>
              have hne : other ≠ text := by
                rintro rfl
                rw [hnumber] at hx
                cases hx
              simp [equal, compareEqual, hvalue, compareF64, hx, compareStr, Json.asStr, hne]
          | _ =>
              simp only [equal, compareEqual, hvalue, compareF64, hx]
              rfl
  | _ => cases h

theorem equal_fires_iff (h : WellFormedMembers condition) :
    Fires (equal condition) ↔
      (condition.get "value").any (fun expected => !isNonFiniteText expected) = true := by
  constructor
  · rintro ⟨actual, -, htrue⟩
    cases hvalue : condition.get "value" with
    | none => simp [equal, compareEqual, hvalue] at htrue
    | some expected =>
        by_contra hnonFinite
        rw [Option.any_some, Bool.not_eq_true', Bool.not_eq_false] at hnonFinite
        exact absurd ((not_equal_nonFiniteText hvalue hnonFinite).symm.trans htrue) (by decide)
  · intro hany
    obtain ⟨expected, hvalue, hfinite⟩ := (Option.any_eq_true _ _).mp hany
    have hwellFormed := h _ _ hvalue
    refine ⟨expected, hwellFormed, ?_⟩
    have hsame {x : Float} (hx : jsonToF64 expected = some x) (hplace : ∃ u,
        place x = some (Place.of u)) :
        equal condition expected = true :=
      (compareEqual_number hx hx hvalue _ _ _).trans (equal_same hplace)
    cases expected with
    | number number => exact hsame rfl (finite_place hwellFormed)
    | string text =>
        cases hparse : parseF64 text with
        | none =>
            simp [equal, compareEqual, hvalue, compareF64, jsonToF64, hparse, compareStr,
              Json.asStr]
        | some y =>
            have hy : y.isFinite = true := by simpa [isNonFiniteText, hparse] using hfinite
            exact hsame hparse ((isFinite_iff y).mp hy)
    | _ =>
        simp only [equal, compareEqual, hvalue, compareF64]
        exact Json.beq_self hwellFormed

theorem notEqual_fires_iff :
    Fires (fun actual => compareEqual condition actual
      (fun a b => decide ((a - b).abs ≥ f64Epsilon)) (fun a b => a != b)
      fun a b => !(a == b)) ↔ (condition.get "value").isSome = true := by
  constructor
  · rintro ⟨actual, -, htrue⟩
    cases hvalue : condition.get "value" with
    | none => simp [compareEqual, hvalue] at htrue
    | some expected => rfl
  · intro hsome
    obtain ⟨expected, hvalue⟩ := Option.isSome_iff_exists.mp hsome
    cases expected with
    | null => exact ⟨.bool true, rfl, by simp [compareEqual, hvalue]; rfl⟩
    | _ => exact ⟨.null, rfl, by simp [compareEqual, hvalue]; rfl⟩

theorem between_fires_iff (h : WellFormedMembers condition) :
    Fires (RuleEvaluator.between condition) ↔ orderedBounds condition = true := by
  constructor
  · rintro ⟨actual, -, htrue⟩
    unfold RuleEvaluator.between at htrue
    unfold orderedBounds
    split at htrue
    · rename_i low high value hlow hhigh hvalue
      obtain ⟨hle, hle'⟩ := Bool.and_eq_true_iff.mp htrue
      obtain ⟨p, q, hp, hq, hpq⟩ := (le_iff low value).mp (of_decide_eq_true hle)
      obtain ⟨q', r, hq', hr, hqr⟩ := (le_iff value high).mp (of_decide_eq_true hle')
      obtain rfl := Option.some.inj (hq.symm.trans hq')
      rw [hlow, hhigh]
      exact decide_eq_true ((le_iff_of_place hp hr).mpr (hpq.trans hqr))
    · cases htrue
  · intro hbounds
    unfold orderedBounds at hbounds
    split at hbounds
    · rename_i low high hlow hhigh
      obtain ⟨p, r, hp, hr, hle⟩ := (le_iff low high).mp (of_decide_eq_true hbounds)
      obtain ⟨actual, hmin, hactual⟩ := Option.bind_eq_some_iff.mp hlow
      refine ⟨actual, h _ _ hmin, ?_⟩
      unfold RuleEvaluator.between
      rw [hlow, hhigh, hactual]
      exact Bool.and_eq_true_iff.mpr ⟨decide_eq_true ((le_iff_of_place hp hp).mpr le_rfl), hbounds⟩
    · cases hbounds

theorem contains_fires_iff : Fires (RuleEvaluator.contains condition) ↔
    ((condition.get "value").bind Json.asStr).isSome = true := by
  constructor
  · rintro ⟨actual, -, htrue⟩
    cases hpattern : (condition.get "value").bind Json.asStr with
    | none => simp [RuleEvaluator.contains, hpattern] at htrue
    | some pattern => rfl
  · intro hsome
    obtain ⟨pattern, hpattern⟩ := Option.isSome_iff_exists.mp hsome
    exact ⟨.string pattern, rfl, by simp [RuleEvaluator.contains, hpattern, Json.asStr]⟩

end Equality

section Validated

variable {condition : Json}

theorem wellFormed_get (h : condition.wellFormed = true) : WellFormedMembers condition := by
  intro key value hget
  cases condition with
  | object fields =>
      obtain ⟨hsorted, hmembers⟩ := (Json.wellFormed_object fields).mp h
      exact hmembers _ ((JsonMap.lookup_eq_some_iff hsorted key value).mp hget)
  | _ => cases hget

-- Each supported operator fires with its operands, and never without.
theorem fires_iff_of_valid (h : WellFormedMembers condition) (hvalid : ValidCondition condition) :
    Fires (evaluate condition) ↔ hasOperands condition = true := by
  obtain ⟨operator, hoperator, hsupported⟩ := hvalid
  simp only [isSupportedOperator, supportedOperators, List.contains_eq_mem, List.mem_cons,
    List.not_mem_nil, or_false, decide_eq_true_eq] at hsupported
  have hevaluate : evaluate condition = fun actual => evaluate condition actual := rfl
  rw [hevaluate]
  unfold evaluate hasOperands
  rw [hoperator]
  rcases hsupported with rfl | rfl | rfl | rfl | rfl | rfl | rfl | rfl | rfl
  · exact greater_fires_iff h
  · exact atLeast_fires_iff h
  · exact less_fires_iff h
  · exact atMost_fires_iff h
  · exact equal_fires_iff h
  · exact notEqual_fires_iff
  · exact between_fires_iff h
  · exact contains_fires_iff
  · exact iff_of_true ⟨.null, rfl, rfl⟩ rfl

-- What is rejected has no operator that the evaluator knows.
theorem evaluate_of_invalid (h : ¬ValidCondition condition) (actual : Json) :
    evaluate condition actual = false := by
  cases hoperator : (condition.get "operator").bind Json.asStr with
  | none => simp only [evaluate, hoperator]
  | some operator =>
      unfold evaluate
      rw [hoperator]
      split
      all_goals first
        | rfl
        | (rename_i heq; exact absurd ⟨_, hoperator.trans heq, rfl⟩ h)

theorem hasOperands_of_invalid (h : ¬ValidCondition condition) : hasOperands condition = true := by
  cases hoperator : (condition.get "operator").bind Json.asStr with
  | none => simp only [hasOperands, hoperator]
  | some operator =>
      unfold hasOperands
      rw [hoperator]
      split
      all_goals first
        | rfl
        | (rename_i heq; exact absurd ⟨_, hoperator.trans heq, rfl⟩ h)

-- An accepted condition can fire and a rejected one cannot, exactly when an accepted operator has
-- operands with which it can be true.
theorem accepted_conditions_fire_iff (condition : Json) (hwellFormed : condition.wellFormed = true)
    (fieldName : String) :
    ((validateCondition condition fieldName = .ok () →
        ∃ actual : Json, actual.wellFormed = true ∧ evaluate condition actual = true) ∧
      (validateCondition condition fieldName ≠ .ok () → ∀ actual, evaluate condition actual =
        false)) ↔
      hasOperands condition = true := by
  rw [Ne, validateCondition_ok_iff]
  by_cases hvalid : ValidCondition condition
  · have hfires := fires_iff_of_valid (wellFormed_get hwellFormed) hvalid
    constructor
    · exact fun h => hfires.mp (h.1 hvalid)
    · exact fun h => ⟨fun _ => hfires.mpr h, fun hinvalid => absurd hvalid hinvalid⟩
  · exact iff_of_true ⟨fun h => absurd h hvalid, fun h => evaluate_of_invalid h⟩
      (hasOperands_of_invalid hvalid)

theorem accepted_conditions_fire_between :
    ∃ actual : Json, actual.wellFormed = true ∧
      evaluate (betweenCondition (.number (.posInt 10)) (.number (.posInt 20))) actual = true := by
  have h := (accepted_conditions_fire_iff (betweenCondition (.number (.posInt 10))
      (.number (.posInt 20)))
    (by decide +kernel) "condition").mpr (by decide +kernel)
  exact h.1 rfl

-- The operator is known, and there is nothing to compare with.
theorem missing_value_accepted :
    validateCondition (.object [("operator", .string ">")]) "condition" = .ok () ∧
      ∀ actual, evaluate (.object [("operator", .string ">")]) actual = false :=
  ⟨rfl, fun _ => rfl⟩

end Validated

end RmqttThings.Api
