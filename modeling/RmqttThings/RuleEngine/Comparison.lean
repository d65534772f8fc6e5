import RmqttThings.Binary64.Integers
import RmqttThings.RuleEngine.Evaluator

namespace RmqttThings.RuleEngine.RuleEvaluator

open Binary64

-- The condition that compares with one value.
def conditionOn (operator : String) (threshold : Json) : Json :=
  .object [("operator", .string operator), ("value", threshold)]

def betweenCondition (low high : Json) : Json :=
  .object [("max", high), ("min", low), ("operator", .string "between")]

section Numbers

theorem place_f64Epsilon : place f64Epsilon = some (Place.of (2 ^ (968 + 54))) := by
  have hmodel : f64Epsilon.toModel.unpack = .finite .positive (2 ^ 52) (-104)
      (Nat.two_pow_pos 52) := rfl
  have hmagnitude : magnitude (2 ^ 52) (-104) = 2 ^ (968 + 54) := by
    have hexp : (-104 + 1074 : Int).toNat = 970 := rfl
    rw [magnitude, hexp, ← pow_add]
  have hcast : ((2 ^ (968 + 54) : Nat) : Int) = 2 ^ (968 + 54) := Nat.cast_pow 2 (968 + 54)
  rw [place, hmodel, placeOf, hmagnitude, ← hcast]
  rfl

variable {actual threshold : Json} {x y : Float} {p q : Place}

theorem jsonToF64_number (number : Number) : jsonToF64 (.number number) = some number.asF64 := rfl

theorem compareF64_some (hx : jsonToF64 actual = some x) (hy : jsonToF64 threshold = some y)
    (op : Float → Float → Bool) :
    compareF64 actual threshold op = some (op x y) := by
  simp [compareF64, hx, hy]

-- What the operators answer about two numbers that have a place.
structure Answers (actual threshold : Json) (p q : Place) : Prop where
  less : evaluate (conditionOn "<" threshold) actual = decide (p < q)
  greater : evaluate (conditionOn ">" threshold) actual = decide (q < p)
  atMost : evaluate (conditionOn "<=" threshold) actual = decide (p ≤ q)
  atLeast : evaluate (conditionOn ">=" threshold) actual = decide (q ≤ p)
  equal : evaluate (conditionOn "==" threshold) actual = true ↔ Near 968 p q
  notEqual : evaluate (conditionOn "!=" threshold) actual = true ↔ ¬SameInfinity p q ∧ ¬Near 968 p q

theorem get_conditionOn (operator : String) (threshold : Json) :
    (conditionOn operator threshold).get "value" = some threshold := rfl

section Numeric

variable (hx : jsonToF64 actual = some x) (hy : jsonToF64 threshold = some y)

include hx hy

theorem compareOrdered_number {condition : Json} (hvalue : condition.get "value" = some threshold)
    (op : Float → Float → Bool) (strOp : String → String → Bool) :
    compareOrdered condition actual op strOp = op x y := by
  simp [compareOrdered, hvalue, compareF64_some hx hy]

theorem compareEqual_number {condition : Json} (hvalue : condition.get "value" = some threshold)
    (op : Float → Float → Bool) (strOp : String → String → Bool) (jsonOp : Json → Json → Bool) :
    compareEqual condition actual op strOp jsonOp = op x y := by
  simp [compareEqual, hvalue, compareF64_some hx hy]

theorem evaluate_less : evaluate (conditionOn "<" threshold) actual = decide (x < y) :=
  compareOrdered_number hx hy (get_conditionOn "<" threshold) _ _

theorem evaluate_greater : evaluate (conditionOn ">" threshold) actual = decide (y < x) :=
  compareOrdered_number hx hy (get_conditionOn ">" threshold) _ _

theorem evaluate_atMost : evaluate (conditionOn "<=" threshold) actual = decide (x ≤ y) :=
  compareOrdered_number hx hy (get_conditionOn "<=" threshold) _ _

theorem evaluate_atLeast : evaluate (conditionOn ">=" threshold) actual = decide (y ≤ x) :=
  compareOrdered_number hx hy (get_conditionOn ">=" threshold) _ _

theorem evaluate_equal :
    evaluate (conditionOn "==" threshold) actual = decide ((x - y).abs < f64Epsilon) :=
  compareEqual_number hx hy (get_conditionOn "==" threshold) _ _ _

theorem evaluate_notEqual :
    evaluate (conditionOn "!=" threshold) actual = decide (f64Epsilon ≤ (x - y).abs) :=
  compareEqual_number hx hy (get_conditionOn "!=" threshold)
    (fun a b => decide ((a - b).abs ≥ f64Epsilon)) (fun a b => a != b) fun a b => !(a == b)

-- Where <, == or > is true, neither number is a NaN.
theorem places_of_compared (h : ∃ operator ∈ ["<", "==", ">"],
    evaluate (conditionOn operator threshold) actual = true) :
    ∃ p q, place x = some p ∧ place y = some q := by
  simp only [List.mem_cons, List.not_mem_nil, or_false, exists_eq_or_imp, exists_eq_left,
    evaluate_less hx hy, evaluate_equal hx hy, evaluate_greater hx hy, decide_eq_true_iff] at h
  rcases h with h | h | h
  · obtain ⟨p, q, hp, hq, -⟩ := (lt_iff x y).mp h
    exact ⟨p, q, hp, hq⟩
  · exact places_of_abs_sub_lt h
  · obtain ⟨q, p, hq, hp, -⟩ := (lt_iff y x).mp h
    exact ⟨p, q, hp, hq⟩

theorem answers_of_place (hp : place x = some p) (hq : place y = some q) :
    Answers actual threshold p q := by
  constructor
  · rw [evaluate_less hx hy, decide_eq_decide, lt_iff_of_place hp hq]
  · rw [evaluate_greater hx hy, decide_eq_decide, lt_iff_of_place hq hp]
  · rw [evaluate_atMost hx hy, decide_eq_decide, le_iff_of_place hp hq]
  · rw [evaluate_atLeast hx hy, decide_eq_decide, le_iff_of_place hq hp]
  · rw [evaluate_equal hx hy, decide_eq_true_iff]
    exact abs_sub_lt_iff place_f64Epsilon (by decide) hp hq
  · rw [evaluate_notEqual hx hy, decide_eq_true_iff]
    exact le_abs_sub_iff place_f64Epsilon (by decide) hp hq

end Numeric

theorem between_of_place {low high : Json} {z : Float} {r : Place} (hx : jsonToF64 actual = some x)
    (hy : jsonToF64 low = some y) (hz : jsonToF64 high = some z) (hp : place x = some p)
    (hq : place y = some q) (hr : place z = some r) :
    evaluate (betweenCondition low high) actual = decide (q ≤ p ∧ p ≤ r) := by
  have hlow : (betweenCondition low high).get "min" = some low := rfl
  have hhigh : (betweenCondition low high).get "max" = some high := rfl
  have heq : evaluate (betweenCondition low high) actual = between (betweenCondition low high)
      actual := rfl
  rw [heq, between, hlow, hhigh]
  simp only [Option.bind_some, hx, hy, hz, ge_iff_le, le_iff_of_place hq hp, le_iff_of_place hp hr,
    Bool.decide_and]

end Numbers

section Coherence

-- The exact value of a number of units.
def value (u : Int) : ℚ := u / 2 ^ 1074

-- The tolerance is met, after the exact difference has been rounded.
def Close (p q : Place) : Prop :=
  ∃ u v, p = Place.of u ∧ q = Place.of v ∧ |value u - value v| < 1 / 2 ^ 52 - 1 / 2 ^ 106

theorem close_iff_near (p q : Place) : Close p q ↔ Near 968 p q := by
  have hscale (j k : Nat) (hj : 1074 = j + k) : (1 : ℚ) / 2 ^ j * 2 ^ 1074 = 2 ^ k := by
    rw [hj, pow_add, ← mul_assoc, one_div, inv_mul_cancel₀ (by positivity), one_mul]
  have hdistance (u v : Int) :
      |value u - value v| < 1 / 2 ^ 52 - 1 / 2 ^ 106 ↔
        (u - v).natAbs < 2 ^ (968 + 54) - 2 ^ 968 := by
    have hpos : (0 : ℚ) < 2 ^ 1074 := by positivity
    rw [value, value, ← sub_div, abs_div, abs_of_pos hpos, div_lt_iff₀ hpos, sub_mul,
      hscale 52 (968 + 54) rfl, hscale 106 968 rfl]
    have hle : (2 : Nat) ^ 968 ≤ 2 ^ (968 + 54) := pow_le_pow_right₀ (by decide) (by decide)
    have hunits : ((2 ^ (968 + 54) - 2 ^ 968 : Nat) : ℚ) = 2 ^ (968 + 54) - 2 ^ 968 := by
      rw [Nat.cast_sub hle, Nat.cast_pow, Nat.cast_pow, Nat.cast_ofNat]
    have habs : (((u - v).natAbs : Nat) : ℚ) = |(u : ℚ) - v| := by
      rw [Nat.cast_natAbs, Int.cast_abs, Int.cast_sub]
    rw [← hunits, ← habs, Nat.cast_lt]
  constructor
  · rintro ⟨u, v, hu, hv, h⟩
    exact ⟨u, v, hu, hv, (hdistance u v).mp h⟩
  · rintro ⟨u, v, hu, hv, h⟩
    exact ⟨u, v, hu, hv, (hdistance u v).mpr h⟩

-- The laws between the operators.
structure Coherent (actual threshold : Json) : Prop where
  trichotomy : ["<", "==", ">"].countP (fun operator => evaluate (conditionOn operator threshold)
    actual) = 1
  notEqual : evaluate (conditionOn "!=" threshold) actual = !evaluate (conditionOn "==" threshold)
    actual
  atMost : evaluate (conditionOn "<=" threshold) actual =
    (evaluate (conditionOn "<" threshold) actual || evaluate (conditionOn "==" threshold) actual)
  atLeast : evaluate (conditionOn ">=" threshold) actual =
    (evaluate (conditionOn ">" threshold) actual || evaluate (conditionOn "==" threshold) actual)
  between : evaluate (betweenCondition threshold threshold) actual =
    evaluate (conditionOn "==" threshold) actual

-- What holds of two numbers in any case.
structure Compared (actual threshold : Json) (p q : Place) : Prop where
  notEqual : evaluate (conditionOn "!=" threshold) actual = !evaluate (conditionOn "==" threshold)
    actual
  exclusive : ¬(evaluate (conditionOn "<" threshold) actual = true ∧
    evaluate (conditionOn ">" threshold) actual = true)
  atMost : evaluate (conditionOn "<=" threshold) actual = !evaluate (conditionOn ">" threshold)
    actual
  atLeast : evaluate (conditionOn ">=" threshold) actual = !evaluate (conditionOn "<" threshold)
    actual
  equal : evaluate (conditionOn "==" threshold) actual = true ↔ Close p q
  between : evaluate (betweenCondition threshold threshold) actual = true ↔ p = q

variable {actual threshold : Json} {x y : Float} {p q : Place}

theorem compared_of_place (hx : jsonToF64 actual = some x) (hy : jsonToF64 threshold = some y)
    (hp : place x = some p)
    (hq : place y = some q) (hsame : ¬SameInfinity p q) : Compared actual threshold p q := by
  have h := answers_of_place hx hy hp hq
  have hbetween := between_of_place hx hy hy hp hq hq
  constructor
  · rw [Bool.eq_iff_iff, h.notEqual, Bool.not_eq_true', Bool.eq_false_iff, Ne, h.equal,
      and_iff_right hsame]
  · rw [h.less, h.greater, decide_eq_true_iff, decide_eq_true_iff]
    exact fun ⟨hlt, hgt⟩ => lt_asymm hlt hgt
  · rw [h.atMost, h.greater, ← decide_not, decide_eq_decide, not_lt]
  · rw [h.atLeast, h.less, ← decide_not, decide_eq_decide, not_lt]
  · rw [h.equal, close_iff_near]
  · rw [hbetween, decide_eq_true_iff, and_comm]
    exact le_antisymm_iff.symm

-- A finite number is close to itself.
theorem close_self (h : ¬SameInfinity p p) : Close p p := by
  rcases Place.cases p with hp | hp | ⟨u, rfl⟩
  · exact absurd ⟨rfl, .inl hp⟩ h
  · exact absurd ⟨rfl, .inr hp⟩ h
  · exact (close_iff_near _ _).mpr (near_self 968 u)

-- Neither is a NaN, they are not the same infinity, and the tolerance joins them only if they are
-- the same.
def ToldApart (x y : Float) : Prop :=
  ∃ p q, place x = some p ∧ place y = some q ∧ ¬SameInfinity p q ∧ (p = q ∨ ¬Close p q)

theorem coherent_of_toldApart (hx : jsonToF64 actual = some x) (hy : jsonToF64 threshold = some y)
    (hapart : ToldApart x y) : Coherent actual threshold := by
  obtain ⟨p, q, hp, hq, hsame, hapart⟩ := hapart
  have h := answers_of_place hx hy hp hq
  have hcompared := compared_of_place hx hy hp hq hsame
  have hequal : evaluate (conditionOn "==" threshold) actual = decide (p = q) := by
    rw [Bool.eq_iff_iff, hcompared.equal, decide_eq_true_iff]
    constructor
    · exact fun hclose => hapart.resolve_right (not_not_intro hclose)
    · rintro rfl
      exact close_self hsame
  have hbetween : evaluate (betweenCondition threshold threshold) actual = decide (p = q) := by
    rw [Bool.eq_iff_iff, hcompared.between, decide_eq_true_iff]
  have hle : p ≤ q ↔ p < q ∨ p = q := le_iff_lt_or_eq
  have hge : q ≤ p ↔ q < p ∨ p = q := by rw [le_iff_lt_or_eq, eq_comm]
  constructor
  · rcases lt_trichotomy p q with hlt | heq | hgt
    · simp [h.less, h.greater, hequal, hlt, hlt.not_gt, hlt.ne]
    · simp [h.less, h.greater, hequal, heq]
    · simp [h.less, h.greater, hequal, hgt, hgt.not_gt, hgt.ne']
  · exact hcompared.notEqual
  · rw [h.atMost, h.less, hequal, ← Bool.decide_or, decide_eq_decide, hle]
  · rw [h.atLeast, h.greater, hequal, ← Bool.decide_or, decide_eq_decide, hge]
  · rw [hbetween, hequal]

theorem toldApart_of_coherent (hx : jsonToF64 actual = some x) (hy : jsonToF64 threshold = some y)
    (hcoherent : Coherent actual threshold) : ToldApart x y := by
  have htrue : ∃ operator ∈ ["<", "==", ">"], evaluate (conditionOn operator threshold) actual =
      true := by
    rw [← List.countP_pos_iff, hcoherent.trichotomy]
    exact Nat.one_pos
  obtain ⟨p, q, hp, hq⟩ := places_of_compared hx hy htrue
  have h := answers_of_place hx hy hp hq
  have hsame : ¬SameInfinity p q := by
    rintro ⟨rfl, hinfinite⟩
    have hequal : evaluate (conditionOn "==" threshold) actual = false := by
      rw [Bool.eq_false_iff, Ne, h.equal]
      exact not_near_infinite (hinfinite.imp_right .inl)
    have hbetween := between_of_place hx hy hy hp hq hq
    rw [hcoherent.between, hequal, eq_comm, decide_eq_false_iff_not] at hbetween
    exact hbetween ⟨le_rfl, le_rfl⟩
  have hcompared := compared_of_place hx hy hp hq hsame
  refine ⟨p, q, hp, hq, hsame, ?_⟩
  by_cases hclose : Close p q
  · exact .inl (hcompared.between.mp (hcoherent.between.trans (hcompared.equal.mpr hclose)))
  · exact .inr hclose

-- Of two numbers that are neither a NaN nor the same infinity the operators answer as `Compared`
-- says, and all the laws hold of two numbers exactly when they are told apart.
theorem comparisons_coherent_iff (hx : jsonToF64 actual = some x)
    (hy : jsonToF64 threshold = some y) :
    (∀ p q, place x = some p → place y = some q → ¬SameInfinity p q →
      Compared actual threshold p q) ∧ (Coherent actual threshold ↔ ToldApart x y) :=
  ⟨fun _ _ hp hq hsame => compared_of_place hx hy hp hq hsame,
    ⟨toldApart_of_coherent hx hy, coherent_of_toldApart hx hy⟩⟩

theorem one_and_two_coherent : Coherent (.number (.posInt 1)) (.number (.posInt 2)) := by
  refine (comparisons_coherent_iff rfl rfl).2.mpr ⟨_, _, place_toFloat 1,
    place_toFloat 2, by simp [SameInfinity], .inr ?_⟩
  rw [close_iff_near, near_unitsOf (by decide)]
  decide

-- The difference is below the tolerance: the numbers are equal, and one is less than the other.
theorem tiny_difference_incoherent : ¬Coherent (.number (.posInt 0)) (.number (.float 1e-17)) := by
  intro h
  have hboth : ["<", "==", ">"].countP (fun operator =>
      evaluate (conditionOn operator (.number (.float 1e-17))) (.number (.posInt 0))) = 2 := by
        decide +kernel
  exact absurd (hboth.symm.trans h.trichotomy) (by decide)

end Coherence

section Integers

-- The integer that a number denotes in the range of `i64` or `u64`.
def integerOf : Number → Option Int
  | .posInt value => some value.toNat
  | .negInt value => some value.toInt
  | .float _ => none

def comparisonOperators : List String := [">", ">=", "<", "<=", "==", "!="]

-- The exact comparison.
def compareInts (operator : String) (a t : Int) : Bool :=
  match operator with
  | ">" => decide (a > t)
  | ">=" => decide (a ≥ t)
  | "<" => decide (a < t)
  | "<=" => decide (a ≤ t)
  | "==" => decide (a = t)
  | "!=" => decide (a ≠ t)
  | _ => false

-- Rounding tells the integers apart, if they differ.
def RoundedApart (a t : Int) : Prop := a = t ∨ roundInt a ≠ roundInt t

variable {actual threshold low high : Number} {a t lo hi : Int}

theorem place_integer {number : Number} {n : Int} (h : integerOf number = some n) :
    place number.asF64 = some (Place.of (unitsOf (roundInt n))) := by
  cases number with
  | posInt value =>
      rw [← Option.some.inj h, roundInt_natCast]
      exact place_toFloat value
  | negInt value =>
      have hge := value.le_toInt
      have hlt := value.toInt_lt
      rw [← Option.some.inj h]
      exact place_ofInt (by omega)
  | float value => cases h

theorem compareInts_iff_roundedApart :
    (∀ operator ∈ comparisonOperators, compareInts operator (roundInt a) (roundInt t) =
      compareInts operator a t) ↔ RoundedApart a t := by
  constructor
  · intro h
    have hequal : decide (roundInt a = roundInt t) = decide (a = t) := h "==" (by decide)
    rw [decide_eq_decide] at hequal
    by_cases heq : a = t
    · exact .inl heq
    · exact .inr (mt hequal.mp heq)
  · intro hapart
    have hlt : roundInt a < roundInt t ↔ a < t := by
      constructor
      · exact fun hlt => lt_of_not_ge fun hge => (roundInt_mono hge).not_gt hlt
      · intro hlt
        exact lt_of_le_of_ne (roundInt_mono hlt.le) (hapart.resolve_left hlt.ne)
    have hgt : roundInt t < roundInt a ↔ t < a := by
      constructor
      · exact fun hlt => lt_of_not_ge fun hge => (roundInt_mono hge).not_gt hlt
      · intro hlt
        exact lt_of_le_of_ne (roundInt_mono hlt.le) (hapart.resolve_left hlt.ne').symm
    have heq : roundInt a = roundInt t ↔ a = t := by omega
    simp only [comparisonOperators, List.forall_mem_cons, List.not_mem_nil, false_imp_iff,
      implies_true, and_true, compareInts, decide_eq_decide]
    omega

theorem roundedApart_of_small (ha : a.natAbs ≤ 2 ^ 53) (ht : t.natAbs ≤ 2 ^ 53) :
    RoundedApart a t := by
  rw [RoundedApart, roundInt_of_natAbs_le ha, roundInt_of_natAbs_le ht]
  exact em (a = t)

theorem evaluate_rounded (ha : integerOf actual = some a) (ht : integerOf threshold = some t) :
    ∀ operator ∈ comparisonOperators, evaluate (conditionOn operator (.number threshold))
      (.number actual) =
      compareInts operator (roundInt a) (roundInt t) := by
  have h := answers_of_place (jsonToF64_number actual) (jsonToF64_number threshold)
      (place_integer ha) (place_integer ht)
  have hequal : evaluate (conditionOn "==" (.number threshold)) (.number actual) =
      decide (roundInt a = roundInt t) := by
    rw [Bool.eq_iff_iff, h.equal, near_unitsOf (by decide), decide_eq_true_iff]
  have hnotEqual : evaluate (conditionOn "!=" (.number threshold)) (.number actual) =
      decide (roundInt a ≠ roundInt t) := by
    rw [Bool.eq_iff_iff, h.notEqual, near_unitsOf (by decide), decide_eq_true_iff]
    exact and_iff_right (by simp [SameInfinity])
  simp only [comparisonOperators, List.forall_mem_cons, List.not_mem_nil, false_imp_iff,
    implies_true, and_true,
    compareInts, h.less, h.greater, h.atMost, h.atLeast, hequal, hnotEqual, Place.of_lt_of,
      Place.of_le_of,
    unitsOf_lt_iff, unitsOf_le_iff, gt_iff_lt, ge_iff_le]

theorem between_rounded (ha : integerOf actual = some a) (hlo : integerOf low = some lo)
    (hhi : integerOf high = some hi) :
    evaluate (betweenCondition (.number low) (.number high)) (.number actual) =
      decide (roundInt lo ≤ roundInt a ∧ roundInt a ≤ roundInt hi) := by
  have h := between_of_place (jsonToF64_number actual) (jsonToF64_number low)
      (jsonToF64_number high) (place_integer ha)
    (place_integer hlo) (place_integer hhi)
  simpa only [Place.of_le_of, unitsOf_le_iff] using h

-- Integers are compared after each has been rounded to 53 bits. The answers are those of the exact
-- comparison when the rounding tells the integers apart, as it does up to 2^53.
theorem integers_compared_rounded (ha : integerOf actual = some a)
    (ht : integerOf threshold = some t)
    (hlo : integerOf low = some lo) (hhi : integerOf high = some hi) :
    (∀ operator ∈ comparisonOperators, evaluate (conditionOn operator (.number threshold))
      (.number actual) =
        compareInts operator (roundInt a) (roundInt t)) ∧
      ((∀ operator ∈ comparisonOperators, evaluate (conditionOn operator (.number threshold))
        (.number actual) =
        compareInts operator a t) ↔ RoundedApart a t) ∧
      evaluate (betweenCondition (.number low) (.number high)) (.number actual) =
        decide (roundInt lo ≤ roundInt a ∧ roundInt a ≤ roundInt hi) ∧
      (RoundedApart a lo → RoundedApart a hi →
        evaluate (betweenCondition (.number low) (.number high)) (.number actual) = decide (lo ≤ a ∧
          a ≤ hi)) ∧
      (a.natAbs ≤ 2 ^ 53 → t.natAbs ≤ 2 ^ 53 → RoundedApart a t) := by
  have hrounded := evaluate_rounded ha ht
  have hbetween := between_rounded ha hlo hhi
  refine ⟨hrounded, ?_, hbetween, fun hlow hhigh => ?_, roundedApart_of_small⟩
  · rw [← compareInts_iff_roundedApart]
    exact forall₂_congr fun operator hoperator => by rw [hrounded operator hoperator]
  · have hle (n : Int) (happart : RoundedApart a n) :
        (roundInt n ≤ roundInt a ↔ n ≤ a) ∧ (roundInt a ≤ roundInt n ↔ a ≤ n) := by
      have hops := compareInts_iff_roundedApart.mpr happart
      have hge : decide (roundInt a ≥ roundInt n) = decide (a ≥ n) := hops ">=" (by decide)
      have hle : decide (roundInt a ≤ roundInt n) = decide (a ≤ n) := hops "<=" (by decide)
      exact ⟨decide_eq_decide.mp hge, decide_eq_decide.mp hle⟩
    rw [hbetween, decide_eq_decide, (hle lo hlow).1, (hle hi hhigh).2]

theorem small_integers_compared :
    comparisonOperators.map (fun operator => evaluate (conditionOn operator (.number (.posInt 50)))
      (.number (.negInt (-3)))) =
      [false, false, true, true, false, true] := by
  have h := @integers_compared_rounded (.negInt (-3)) (.posInt 50) (.posInt 0) (.posInt 9) (-3) 50 0
      9 rfl rfl rfl rfl
  have hexact := h.2.1.mpr (h.2.2.2.2 (by decide) (by decide))
  exact (List.map_congr_left hexact).trans rfl

-- 2^53 + 1 is rounded to 2^53.
theorem odd_integer_rounded :
    evaluate (conditionOn ">" (.number (.posInt 9007199254740992)))
      (.number (.posInt 9007199254740993)) = false ∧
      compareInts ">" 9007199254740993 9007199254740992 = true := by
  decide +kernel

end Integers

end RmqttThings.RuleEngine.RuleEvaluator
