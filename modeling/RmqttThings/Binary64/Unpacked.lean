import RmqttThings.Binary64.Nearest
import Mathlib

namespace Binary64

open Float.Model (UnpackedFloat Format totalExponent)
open Float.Model.UnpackedFloat

section Shift

-- What is left of a mantissa after it has been shifted: the quotient, and how the fraction
-- compares with a half.
structure Shifted (em : ExtendedMantissa) (m k : Nat) : Prop where
  mantissa : em.mantissa = m / 2 ^ k
  roundBit : em.roundBit = true ↔ 2 ^ k ≤ 2 * (m % 2 ^ k)
  stickyBit : em.stickyBit = true ↔ m % 2 ^ k ≠ 0 ∧ 2 * (m % 2 ^ k) ≠ 2 ^ k

variable {em : ExtendedMantissa} {m k : Nat}

theorem shifted_exact (m : Nat) : Shifted ⟨m, false, false⟩ m 0 := by
  constructor
  · simp
  · simp [Nat.mod_one]
  · simp [Nat.mod_one]

theorem Shifted.shiftRightOne (h : Shifted em m k) : Shifted em.shiftRightOne m (k + 1) := by
  have hpos : 0 < 2 ^ k := Nat.two_pow_pos k
  have hlt : m % 2 ^ k < 2 ^ k := Nat.mod_lt m hpos
  have hmod : m % 2 ^ (k + 1) = m % 2 ^ k + 2 ^ k * (m / 2 ^ k % 2) := by
    rw [Nat.pow_succ, Nat.mod_mul]
  have hdiv : m / 2 ^ k / 2 = m / 2 ^ (k + 1) := by rw [Nat.div_div_eq_div_mul, Nat.pow_succ]
  have hparity : m / 2 ^ k % 2 = 0 ∨ m / 2 ^ k % 2 = 1 := by omega
  constructor
  · rw [ExtendedMantissa.shiftRightOne, h.mantissa, hdiv]
  · rw [hmod, Nat.pow_succ]
    simp only [ExtendedMantissa.shiftRightOne, h.mantissa, bne_iff_ne]
    rcases hparity with heven | hodd
    · rw [heven]
      omega
    · rw [hodd]
      omega
  · rw [hmod, Nat.pow_succ]
    simp only [ExtendedMantissa.shiftRightOne, Bool.or_eq_true, h.roundBit, h.stickyBit]
    rcases hparity with heven | hodd
    · rw [heven]
      omega
    · rw [hodd]
      omega

theorem shifted_shiftRight (m k : Nat) :
    Shifted ((⟨m, false, false⟩ : ExtendedMantissa) >>> k) m k := by
  induction k with
  | zero => exact shifted_exact m
  | succ k ih => exact ih.shiftRightOne

theorem Shifted.roundedMantissa (h : Shifted em m k) : em.roundedMantissa = nearestEven m k := by
  obtain ⟨q, round, sticky⟩ := em
  obtain ⟨hq, hround, hsticky⟩ := h
  simp only at hq hround hsticky
  unfold nearestEven
  cases round <;> cases sticky <;>
    simp only [ExtendedMantissa.roundedMantissa, ExtendedMantissa.accuracy,
      Accuracy.roundToNearestEven, hq] <;>
    simp only [Bool.false_eq_true, false_iff, true_iff] at hround hsticky <;>
    split_ifs <;> omega

end Shift

section Canonical

-- A magnitude in units of the least positive number.
def magnitude (m : Nat) (e : Int) : Nat := m * 2 ^ (e + 1074).toNat

-- The only representation of its magnitude.
structure Canonical (m : Nat) (e : Int) : Prop where
  lt : m < 2 ^ 53
  le : -1074 ≤ e
  normal : 2 ^ 52 ≤ m ∨ e = -1074

variable {m m' : Nat} {e e' : Int}

theorem magnitude_pos (hm : 0 < m) : 0 < magnitude m e := Nat.mul_pos hm (Nat.two_pow_pos _)

theorem Canonical.magnitude_lt (h : Canonical m e) (h' : Canonical m' e') (hlt : e < e') :
    magnitude m e < magnitude m' e' := by
  have hnormal : 2 ^ 52 ≤ m' := by
    refine h'.normal.resolve_right fun heq => ?_
    have hle := h.le
    omega
  have hexp : (e + 1074).toNat + 1 ≤ (e' + 1074).toNat := by
    have hle := h.le
    omega
  calc
    magnitude m e < 2 ^ 53 * 2 ^ (e + 1074).toNat :=
      Nat.mul_lt_mul_of_pos_right h.lt (Nat.two_pow_pos _)
    _ = 2 ^ 52 * 2 ^ ((e + 1074).toNat + 1) := by
      rw [← Nat.pow_add, ← Nat.pow_add]
      congr 1
      omega
    _ ≤ magnitude m' e' := Nat.mul_le_mul hnormal (Nat.pow_le_pow_right (by decide) hexp)

-- The fields compare like the magnitudes.
theorem Canonical.compare_magnitude (h : Canonical m e) (h' : Canonical m' e') :
    (compare e e').then (compare m m') = compare (magnitude m e) (magnitude m' e') := by
  rcases lt_trichotomy e e' with hlt | rfl | hgt
  · have hmagnitude := h.magnitude_lt h' hlt
    rw [compare_lt_iff_lt.mpr hlt, compare_lt_iff_lt.mpr hmagnitude]
    rfl
  · have hpos : 0 < 2 ^ (e + 1074).toNat := Nat.two_pow_pos _
    rw [compare_eq_iff_eq.mpr rfl]
    rcases lt_trichotomy m m' with hlt | rfl | hgt
    · have hmagnitude : magnitude m e < magnitude m' e := Nat.mul_lt_mul_of_pos_right hlt hpos
      rw [compare_lt_iff_lt.mpr hlt, compare_lt_iff_lt.mpr hmagnitude]
      rfl
    · rw [compare_eq_iff_eq.mpr rfl, compare_eq_iff_eq.mpr rfl]
      rfl
    · have hmagnitude : magnitude m' e < magnitude m e := Nat.mul_lt_mul_of_pos_right hgt hpos
      rw [compare_gt_iff_gt.mpr hgt, compare_gt_iff_gt.mpr hmagnitude]
      rfl
  · have hmagnitude := h'.magnitude_lt h hgt
    rw [compare_gt_iff_gt.mpr hgt, compare_gt_iff_gt.mpr hmagnitude]
    rfl

end Canonical

section Rounding

variable {m : Nat} {e : Int}

theorem log2_magnitude (hm : 0 < m) : (magnitude m e).log2 = m.log2 + (e + 1074).toNat :=
  log2_mul_two_pow hm.ne' _

theorem targetExponent_eq (hm : 0 < m) (he : -1074 ≤ e) :
    Format.binary64.targetExponent (totalExponent m e) = (excess (magnitude m e) : Int) - 1074 := by
  rw [excess, log2_magnitude hm]
  simp only [Format.targetExponent, totalExponent, Format.mantissaBits, Format.minExponent]
  omega

theorem shiftToTargetExponent_spec (hm : 0 < m) (he : -1074 ≤ e)
    (hfits : (e + 1074).toNat ≤ excess (magnitude m e)) :
    (shiftToTargetExponent Format.binary64 m e .exact).2 = (excess (magnitude m e) : Int) - 1074 ∧
      Shifted (shiftToTargetExponent Format.binary64 m e .exact).1 m
        (excess (magnitude m e) - (e + 1074).toNat) := by
  have hamount : ((excess (magnitude m e) : Int) - 1074 - e).toNat =
      excess (magnitude m e) - (e + 1074).toNat := by
    omega
  simp only [shiftToTargetExponent, shiftToExponent, targetExponent_eq hm he, hamount]
  refine ⟨by omega, ?_⟩
  exact shifted_shiftRight m _

-- A significand that is not too long stays as it is.
theorem shift_of_lt {M k : Nat} (h : M < 2 ^ 53) :
    shiftToTargetExponent Format.binary64 M ((k : Int) - 1074) .exact = (⟨M, false, false⟩,
      (k : Int) - 1074) := by
  have htarget : (Format.binary64.targetExponent
      (totalExponent M ((k : Int) - 1074)) - ((k : Int) - 1074)).toNat = 0 := by
    have hlog : M.log2 < 53 := by
      by_cases hM : M = 0
      · simp [hM]
      · exact (Nat.log2_lt hM).mpr h
    simp only [Format.targetExponent, totalExponent, Format.mantissaBits, Format.minExponent]
    omega
  simp only [shiftToTargetExponent, shiftToExponent, htarget]
  refine Prod.ext rfl ?_
  simp only
  omega

-- A significand that has been rounded up to the next power of two is shifted once more.
theorem shift_carry (k : Nat) :
    shiftToTargetExponent Format.binary64 (2 ^ 53) ((k : Int) - 1074) .exact =
      (⟨2 ^ 52, false, false⟩, (k : Int) + 1 - 1074) := by
  have htarget :
      (Format.binary64.targetExponent
        (totalExponent (2 ^ 53) ((k : Int) - 1074)) - ((k : Int) - 1074)).toNat = 1 := by
    simp only [Format.targetExponent, totalExponent, Nat.log2_two_pow, Format.mantissaBits,
      Format.minExponent]
    omega
  simp only [shiftToTargetExponent, shiftToExponent, htarget]
  refine Prod.ext rfl ?_
  simp only
  omega

-- The second shift has the last word.
theorem roundWithAccuracy_eq (s : Sign) {first second : ExtendedMantissa × Int}
    (hfirst : shiftToTargetExponent Format.binary64 m e .exact = first)
    (hsecond : shiftToTargetExponent Format.binary64 first.1.roundedMantissa first.2 .exact =
      second)
    (hpos : 0 < second.1.mantissa) :
    roundWithAccuracy Format.binary64 s m e .exact = .finite s second.1.mantissa second.2 hpos := by
  subst hfirst hsecond
  exact dif_neg hpos.ne'

-- The result of an operation: canonical, and the nearest one to the exact magnitude.
def Rounded (result : UnpackedFloat) (s : Sign) (exact : Nat) : Prop :=
  ∃ m e hm, result = .finite s m e hm ∧ Canonical m e ∧ magnitude m e = round53 exact

theorem rounded_roundWithAccuracy (s : Sign) (hm : 0 < m) (he : -1074 ≤ e)
    (hfits : (e + 1074).toNat ≤ excess (magnitude m e)) :
    Rounded (roundWithAccuracy Format.binary64 s m e .exact) s (magnitude m e) := by
  obtain ⟨hexp, hshifted⟩ := shiftToTargetExponent_spec hm he hfits
  have hexact : nearestEven m (excess (magnitude m e) - (e + 1074).toNat) =
      nearestEven (magnitude m e) (excess (magnitude m e)) := by
    have hshift := nearestEven_shift m (e + 1074).toNat (excess (magnitude m e) - (e + 1074).toNat)
    rw [Nat.sub_add_cancel hfits] at hshift
    exact hshift.symm
  have hrounded := hshifted.roundedMantissa.trans hexact
  have hpos := significand_pos (magnitude_pos (e := e) hm)
  have hle := significand_le (magnitude m e)
  have hround : round53 (magnitude m e) =
      nearestEven (magnitude m e) (excess (magnitude m e)) * 2 ^ excess (magnitude m e) := rfl
  have hnormal : 2 ^ 52 ≤ nearestEven (magnitude m e) (excess (magnitude m e)) ∨
      excess (magnitude m e) = 0 := by
    by_cases hlog : 52 ≤ (magnitude m e).log2
    · exact .inl (le_significand hlog)
    · right
      rw [excess]
      omega
  have hsecond : ∃ second, shiftToTargetExponent Format.binary64
      (shiftToTargetExponent Format.binary64 m e .exact).1.roundedMantissa
      (shiftToTargetExponent Format.binary64 m e .exact).2 .exact = second := ⟨_, rfl⟩
  obtain ⟨second, hsecond⟩ := hsecond
  have hresult := roundWithAccuracy_eq s rfl hsecond
  rw [hexp, hrounded] at hsecond
  generalize nearestEven (magnitude m e) (excess (magnitude m e)) = M at *
  generalize excess (magnitude m e) = k at *
  by_cases hlt : M < 2 ^ 53
  · rw [shift_of_lt hlt] at hsecond
    subst hsecond
    refine ⟨M, _, hpos, hresult hpos, ⟨hlt, by omega, by omega⟩, ?_⟩
    rw [hround, magnitude, Int.sub_add_cancel, Int.toNat_natCast]
  · obtain rfl : M = 2 ^ 53 := by omega
    rw [shift_carry] at hsecond
    subst hsecond
    refine ⟨2 ^ 52, _, by decide, hresult (Nat.two_pow_pos 52), ⟨by decide, by omega, .inl le_rfl⟩,
      ?_⟩
    have hsucc : ((k : Int) + 1).toNat = k + 1 := rfl
    have hpow : 2 ^ (k + 1) = 2 * 2 ^ k := Nat.pow_succ'
    have hcarry : 2 ^ 52 * 2 = 2 ^ 53 := rfl
    rw [hround, magnitude, Int.sub_add_cancel, hsucc, hpow, ← Nat.mul_assoc, hcarry]

theorem rounded_round (s : Sign) (hm : 0 < m) (he : -1074 ≤ e) :
    Rounded (UnpackedFloat.round Format.binary64 s m e) s (magnitude m e) := by
  unfold UnpackedFloat.round
  simp only [targetExponent_eq hm he, decreaseExponent]
  -- The exponent is decreased by what is missing to a full significand.
  let k := excess (magnitude m e)
  let amount := (e - ((k : Int) - 1074)).toNat
  have hsame : magnitude (m <<< amount) (e - amount) = magnitude m e := by
    have hle : amount ≤ (e + 1074).toNat := by omega
    have hexp : (e - amount + 1074).toNat = (e + 1074).toNat - amount := by omega
    rw [magnitude, magnitude, Nat.shiftLeft_eq, hexp, Nat.mul_assoc, ← Nat.pow_add,
      Nat.add_sub_of_le hle]
  have hfits : (e - amount + 1074).toNat ≤ excess (magnitude (m <<< amount) (e - amount)) := by
    rw [hsame]
    omega
  have hpos : 0 < m <<< amount := by
    rw [Nat.shiftLeft_eq]
    exact Nat.mul_pos hm (Nat.two_pow_pos _)
  have h := rounded_roundWithAccuracy s hpos (by omega) hfits
  rwa [hsame] at h

end Rounding

end Binary64
