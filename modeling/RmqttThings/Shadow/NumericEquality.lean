import RmqttThings.RuleEngine.Comparison
import RmqttThings.Shadow.Convergence

namespace RmqttThings.Shadow

open Binary64
open RuleEngine.RuleEvaluator (evaluate conditionOn value place_integer integerOf answers_of_place)

-- The number that a JSON number stands for.
def Denotes : Number → ℚ → Prop
  | .posInt n, q => q = n.toNat
  | .negInt n, q => q = n.toInt
  | .float x, q => ∃ u, place x = some (Place.of u) ∧ q = value u

-- Both are non-negative integers, both negative integers, or both floats.
def sameKind : Number → Number → Bool
  | .posInt _, .posInt _ => true
  | .negInt _, .negInt _ => true
  | .float _, .float _ => true
  | _, _ => false

section Places

theorem value_injective {u v : Int} (h : value u = value v) : u = v := by
  have hpos : (2 : ℚ) ^ 1074 ≠ 0 := pow_ne_zero 1074 two_ne_zero
  rw [value, value, div_left_inj' hpos] at h
  exact Int.cast_injective h

theorem value_unitsOf (n : Int) : value (unitsOf n) = n := by
  have hone : magnitude 1 0 = 2 ^ 1074 := by
    have hexp : (0 + 1074 : Int).toNat = 1074 := rfl
    rw [magnitude, Nat.one_mul, hexp]
  have hpos : (2 : ℚ) ^ 1074 ≠ 0 := pow_ne_zero 1074 two_ne_zero
  rw [value, unitsOf, hone, Int.cast_mul, Int.cast_natCast, Nat.cast_pow, Nat.cast_ofNat,
    mul_div_cancel_right₀ _ hpos]

theorem roundInt_unitsOf (n : Int) : roundInt (unitsOf n) = unitsOf (roundInt n) := by
  have hnat (k : Nat) : roundInt (unitsOf k) = unitsOf (roundInt k) := by
    rw [unitsOf_natCast, roundInt_natCast, round53_magnitude, roundInt_natCast, unitsOf_natCast]
  rcases Int.natAbs_eq n with h | h
  · rw [h]
    exact hnat _
  · rw [h, unitsOf_neg, roundInt_neg, roundInt_neg, unitsOf_neg, hnat]

-- A finite float is its own nearest number.
theorem roundInt_of_place {x : Float} {u : Int} (h : place x = some (Place.of u)) :
    roundInt u = u := by
  have hpackable := packable_toModel x
  have hround : round53 u.natAbs = u.natAbs := by
    rcases finite_of_placeOf h with ⟨s, -, rfl⟩ | ⟨s, m, e, hm, hfinite, rfl⟩
    · exact round53_zero
    · rw [hfinite] at hpackable
      rw [natAbs_apply, hpackable.1.round53_magnitude]
  rw [roundInt, hround]
  split_ifs <;> omega

-- The float of a number stands where the number does, after rounding.
theorem place_asF64 {number : Number} {q : ℚ} (h : Denotes number q) :
    ∃ u, q = value u ∧ place number.asF64 = some (Place.of (roundInt u)) := by
  have hinteger : ∀ n, integerOf number = some n → q = n →
      ∃ u, q = value u ∧ place number.asF64 = some (Place.of (roundInt u)) := by
    intro n hn hq
    exact ⟨unitsOf n, by rw [hq, value_unitsOf], by rw [roundInt_unitsOf]; exact place_integer hn⟩
  cases number with
  | posInt n => exact hinteger n.toNat rfl (by simpa [Denotes] using h)
  | negInt n => exact hinteger n.toInt rfl h
  | float x =>
      obtain ⟨u, hplace, rfl⟩ := h
      exact ⟨u, rfl, by rw [roundInt_of_place hplace]; exact hplace⟩

end Places

section Equality

variable {d r : Number} {q : ℚ}

-- The evaluator compares what the numbers stand for.
theorem evaluate_equal_of_denotes (hd : Denotes d q) (hr : Denotes r q) :
    evaluate (conditionOn "==" (.number d)) (.number r) = true := by
  obtain ⟨u, hu, hplace⟩ := place_asF64 hd
  obtain ⟨v, hv, hplace'⟩ := place_asF64 hr
  obtain rfl := value_injective (hu.symm.trans hv)
  exact (answers_of_place rfl rfl hplace' hplace).equal.mpr (near_self 968 _)

-- `serde_json` compares them only within one kind.
theorem beq_iff_sameKind (hd : Denotes d q) (hr : Denotes r q) :
    (r == d) = true ↔ sameKind d r = true := by
  have hkinds : (r == d) = Number.beq r d := rfl
  rw [hkinds]
  cases d with
  | posInt n =>
      cases r with
      | posInt m =>
          have hsame : m.toNat = n.toNat := by exact_mod_cast hr.symm.trans hd
          simp [Number.beq, sameKind, UInt64.toNat_inj.mp hsame]
      | negInt m => simp [Number.beq, sameKind]
      | float x => simp [Number.beq, sameKind]
  | negInt n =>
      cases r with
      | posInt m => simp [Number.beq, sameKind]
      | negInt m =>
          have hsame : m.toInt = n.toInt := by exact_mod_cast hr.symm.trans hd
          simp [Number.beq, sameKind, Int64.toInt_inj.mp hsame]
      | float x => simp [Number.beq, sameKind]
  | float y =>
      cases r with
      | posInt m => simp [Number.beq, sameKind]
      | negInt m => simp [Number.beq, sameKind]
      | float x =>
          obtain ⟨u, hu, rfl⟩ := hd
          obtain ⟨v, hv, hvalue⟩ := hr
          obtain rfl := value_injective hvalue
          have hequal : (x == y) = true := by
            rw [Number.float_beq_iff, compare_toModel, hu, hv, Option.map₂_some_some,
              cmp_self_eq_eq]
          simp [Number.beq, sameKind, hequal]

end Equality

-- For two numbers that stand for the same one, the delta is silent, as the evaluator
-- would have it, exactly when they are of the same kind.
theorem delta_agrees_iff (desired reported : JsonMap) (key : String) (d r : Number) (obj : Json)
    (q : ℚ) (hdesired : desired.get key = some (.number d))
    (hreported : reported.get key = some obj)
    (hvalue : obj.get "value" = some (.number r)) (hd : Denotes d q) (hr : Denotes r q) :
    ((computeDelta desired reported).get key = none ∧ evaluate (conditionOn "==" (.number d))
      (.number r) = true) ↔ sameKind d r = true := by
  have hdiverged : diverged reported key (.number d) = !(r == d) := by
    simp only [diverged, hreported, hvalue]
    rfl
  rw [and_iff_left (evaluate_equal_of_denotes hd hr), ← beq_iff_sameKind hd hr, get_computeDelta,
    hdesired]
  cases hsame : r == d with
  | true => simp [Option.filter, Json.isNull, hdiverged, hsame]
  | false => simp [Option.filter, Json.isNull, hdiverged, hsame]

section Example

def brightness (number : Number) (h : number.finite = true) : JsonMap :=
  ⟨[("brightness", .number number)], by simp [Json.wellFormed, Json.wellFormedFields, h]⟩

def reportedBrightness (number : Number) (h : number.finite = true) : JsonMap :=
  stampedMap "1970-01-01T00:00:00Z" (brightness number h)

theorem denotes_eighty : Denotes (.posInt 80) 80 := by
  have hcast : (80 : UInt64).toNat = 80 := rfl
  simp [Denotes, hcast]

theorem denotes_eighty_float : Denotes (.float 80.0) 80 := by
  have hfloat : (80.0 : Float) = (80 : UInt64).toFloat := by decide +kernel
  refine ⟨unitsOf 80, ?_, (value_unitsOf 80).symm⟩
  rw [hfloat, place_toFloat]
  have hround : round53 (80 : UInt64).toNat = 80 := round53_of_lt (by decide)
  rw [hround]
  rfl

-- 80 and 80 are of one kind.
theorem brightness_agrees :
    (computeDelta (brightness (.posInt 80) rfl) (reportedBrightness (.posInt 80) rfl)).get
      "brightness" = none :=
  ((delta_agrees_iff (brightness (.posInt 80) rfl) (reportedBrightness (.posInt 80) rfl)
    "brightness" (.posInt 80)
    (.posInt 80) _ 80 rfl rfl rfl denotes_eighty denotes_eighty).mpr rfl).1

-- 80 and 80.0 are equal for the rules, and the shadow never converges.
theorem brightness_never_converges :
    Denotes (.posInt 80) 80 ∧ Denotes (.float 80.0) 80 ∧
      (computeDelta (brightness (.posInt 80) rfl)
        (reportedBrightness (.float 80.0) (by decide +kernel))).get
        "brightness" = some (.number (.posInt 80)) ∧
      evaluate (conditionOn "==" (.number (.posInt 80))) (.number (.float 80.0)) = true := by
  refine ⟨denotes_eighty, denotes_eighty_float, rfl,
    evaluate_equal_of_denotes denotes_eighty denotes_eighty_float⟩

end Example

end RmqttThings.Shadow
