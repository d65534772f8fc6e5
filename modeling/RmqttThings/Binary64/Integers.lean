import RmqttThings.Binary64.Difference

namespace Binary64

open Float.Model (UnpackedFloat Format)
open Float.Model.UnpackedFloat

section Units

-- The value of an integer in units of the least positive number.
def unitsOf (n : Int) : Int := n * magnitude 1 0

theorem unitsOf_neg (n : Int) : unitsOf (-n) = -unitsOf n := Int.neg_mul n _

theorem unitsOf_natCast (n : Nat) : unitsOf n = (magnitude n 0 : Nat) := by
  rw [unitsOf, magnitude, magnitude, Nat.one_mul, Nat.cast_mul]

theorem round53_magnitude (n : Nat) : round53 (magnitude n 0) = magnitude (round53 n) 0 :=
  round53_mul_two_pow n _

theorem unitsOf_lt_iff (a b : Int) : unitsOf a < unitsOf b ↔ a < b := by
  have hpos : (0 : Int) < magnitude 1 0 := Int.natCast_pos.mpr (magnitude_pos Nat.one_pos)
  exact Int.mul_lt_mul_right hpos

theorem unitsOf_le_iff (a b : Int) : unitsOf a ≤ unitsOf b ↔ a ≤ b := by
  rw [← not_lt, unitsOf_lt_iff, not_lt]

-- Integers that differ are no less than one apart.
theorem near_unitsOf {j : Nat} (hj : j + 54 ≤ 1074) (a b : Int) :
    Near j (Place.of (unitsOf a)) (Place.of (unitsOf b)) ↔ a = b := by
  have hlt : 2 ^ j < 2 ^ (j + 54) := pow_lt_pow_right₀ Nat.one_lt_two (by omega)
  have hdistance : (unitsOf a - unitsOf b).natAbs = (a - b).natAbs * magnitude 1 0 := by
    rw [unitsOf, unitsOf, ← Int.sub_mul, Int.natAbs_mul, Int.natAbs_natCast]
  rw [near_of, hdistance]
  constructor
  · intro hnear
    by_contra hne
    have hone : 1 ≤ (a - b).natAbs := by omega
    have hunit : 2 ^ (j + 54) ≤ magnitude 1 0 := by
      rw [magnitude, Nat.one_mul]
      exact pow_le_pow_right₀ (by decide) hj
    have hmul := Nat.mul_le_mul hone hunit
    rw [Nat.one_mul] at hmul
    exact absurd (hmul.trans_lt hnear) (Nat.not_lt.mpr (Nat.sub_le _ _))
  · rintro rfl
    rw [Int.sub_self, Int.natAbs_zero, Nat.zero_mul]
    omega

theorem unitsOf_round53_zero : unitsOf (round53 0) = 0 := by
  rw [round53_zero, unitsOf, Nat.cast_zero, Int.zero_mul]

end Units

section Conversion

variable {n : Nat}

theorem Rounded.placeOf {a : UnpackedFloat} (h : Rounded a .positive (magnitude n 0))
    (hn : n < 2 ^ 64) :
    placeOf (unpack Format.binary64 (pack Format.binary64 a)) =
      some (Place.of (unitsOf (round53 n))) := by
  obtain ⟨m, e, hm, rfl, hcanonical, hmagnitude⟩ := h
  rw [round53_magnitude] at hmagnitude
  have hround : round53 n ≤ 2 ^ 64 := round53_le_two_pow hn
  have hmul (k : Nat) : round53 n * 2 ^ k ≤ 2 ^ (64 + k) := by
    rw [Nat.pow_add]
    exact Nat.mul_le_mul_right _ hround
  have hlt : magnitude m e < 2 ^ 2098 := by
    have hexp : 64 + (0 + 1074 : Int).toNat < 2098 := by decide
    have hpow : (2 : Nat) ^ (64 + (0 + 1074 : Int).toNat) < 2 ^ 2098 :=
      pow_lt_pow_right₀ Nat.one_lt_two hexp
    rw [hmagnitude]
    exact lt_of_le_of_lt (hmul _) hpow
  rw [unpack_pack_finite hcanonical (hcanonical.le_iff.mpr hlt), unitsOf_natCast, ← hmagnitude]
  rfl

theorem rounded_ofNat (h : 0 < n) :
    Rounded (ofNat Format.binary64 n) .positive (magnitude n 0) := by
  have hpos : (0 : Int) < n := Int.natCast_pos.mpr h
  rw [ofNat, ofInt, UnpackedFloat.normalize, compare_gt_iff_gt.mpr hpos]
  exact rounded_round .positive h (by decide)

theorem place_toFloat (n : UInt64) :
    place n.toFloat = some (Place.of (unitsOf (round53 n.toNat))) := by
  have hmodel : n.toFloat.toModel.unpack = unpack Format.binary64
      (pack Format.binary64 (ofNat Format.binary64 n.toNat)) :=
    rfl
  rw [place, hmodel]
  by_cases hn : n.toNat = 0
  · rw [hn, unitsOf_round53_zero]
    rfl
  · exact (rounded_ofNat (Nat.pos_of_ne_zero hn)).placeOf n.toNat_lt

-- A product that has enough bits to be rounded.
theorem rounded_product {m : Nat} {e : Int} (h : 0 < n) (hm : 0 < m) (he : -1074 ≤ e)
    (hmagnitude : magnitude m e = magnitude n 0) (hfits : (e + 1074).toNat ≤ n.log2 + 1022) :
    Rounded (roundWithAccuracy Format.binary64 .positive m e .exact) .positive (magnitude n 0) := by
  rw [← hmagnitude]
  refine rounded_roundWithAccuracy .positive hm he ?_
  rw [hmagnitude, excess, log2_magnitude h]
  omega

-- Small numbers are multiplied by one.
theorem rounded_mul_one (h : 0 < n) (hn : n < 2 ^ 53) :
    Rounded (mul Format.binary64
      (unpack Format.binary64 (pack Format.binary64 (ofNat Format.binary64 n)))
      (.finite .positive (2 ^ 52) (-52) (Nat.two_pow_pos 52))) .positive (magnitude n 0) := by
  obtain ⟨m, e, hm, hresult, hcanonical, hmagnitude⟩ := rounded_ofNat h
  rw [round53_magnitude, round53_of_lt hn] at hmagnitude
  have hlog := congrArg Nat.log2 hmagnitude
  rw [log2_magnitude hm, log2_magnitude h] at hlog
  have hsmall : m.log2 < 53 := (Nat.log2_lt hm.ne').mpr hcanonical.lt
  have hnlog : n.log2 < 53 := (Nat.log2_lt h.ne').mpr hn
  have hle := hcanonical.le
  have hlarge : 52 ≤ m.log2 := (Nat.le_log2 hm.ne').mpr (hcanonical.normal.resolve_right (by omega))
  rw [hresult, unpack_pack_finite hcanonical (by omega)]
  refine rounded_product h (Nat.mul_pos hm (Nat.two_pow_pos 52)) (by omega) ?_ (by omega)
  have hexp : (e + 1074).toNat = 52 + (e + -52 + 1074).toNat := by omega
  rw [← hmagnitude, magnitude, magnitude, hexp, Nat.pow_add, Nat.mul_assoc]

theorem rounded_scientific (h : 0 < n) :
    Rounded (ofScientific Format.binary64 n 0) .positive (magnitude n 0) := by
  have hlow : ¬(0 : Int) < -((2 ^ 11 : Int) + n.log2) := by omega
  have hmul : ofScientific Format.binary64 n 0 =
      roundWithAccuracy Format.binary64 .positive (n <<< 53 * 10 ^ 0) (-53 + 0) .exact := by
    rw [ofScientific, dif_neg h.ne', if_neg (by decide), if_neg hlow, if_pos le_rfl]
    rfl
  have hshift : n <<< 53 * 10 ^ 0 = n * 2 ^ 53 := by
    rw [Nat.pow_zero, Nat.mul_one, Nat.shiftLeft_eq]
  rw [hmul, hshift]
  refine rounded_product h (Nat.mul_pos h (Nat.two_pow_pos 53)) (by decide) ?_ (by omega)
  have hexp : (0 + 1074 : Int).toNat = 53 + (-53 + 0 + 1074 : Int).toNat := rfl
  rw [magnitude, magnitude, hexp, Nat.pow_add, Nat.mul_assoc]

theorem place_ofNat (hn : n < 2 ^ 64) :
    place (Float.ofNat n) = some (Place.of (unitsOf (round53 n))) := by
  have hscientific : Float.ofNat n = Float.ofScientific n false 0 := rfl
  rw [hscientific, Float.ofScientific]
  by_cases hfast : n < 2 ^ 53 ∧ 0 ≤ 22
  · have hcast : n.toUInt64.toNat = n := Nat.mod_eq_of_lt hn
    have hmodel : (n.toUInt64.toFloat * Float.exactlyRepresentablePowersOfTen[0]).toModel.unpack =
        unpack Format.binary64 (pack Format.binary64 (mul Format.binary64
          (unpack Format.binary64 (pack Format.binary64 (ofNat Format.binary64 n.toUInt64.toNat)))
          (.finite .positive (2 ^ 52) (-52) (Nat.two_pow_pos 52)))) := rfl
    rw [dif_pos hfast]
    refine (congrArg Binary64.placeOf hmodel).trans ?_
    rw [hcast]
    by_cases hzero : n = 0
    · subst hzero
      rw [unitsOf_round53_zero]
      rfl
    · exact (rounded_mul_one (Nat.pos_of_ne_zero hzero) hfast.1).placeOf hn
  · have hpos : 0 < n := by omega
    rw [dif_neg hfast]
    exact (rounded_scientific hpos).placeOf hn

theorem place_neg {x : Float} {u : Int} (hx : place x = some (Place.of u)) :
    place x.neg = some (Place.of (-u)) := by
  have hmodel : x.neg.toModel.unpack = unpack Format.binary64
      (pack Format.binary64 x.toModel.unpack.neg) := rfl
  have hpackable := packable_toModel x
  rw [place, hmodel]
  rcases finite_of_placeOf hx with ⟨s, hzero, rfl⟩ | ⟨s, m, e, hm, hfinite, rfl⟩
  · rw [hzero]
    cases s <;> rfl
  · rw [hfinite] at hpackable ⊢
    have hneg : Packable (UnpackedFloat.neg (.finite s m e hm)) := hpackable
    rw [unpack_pack hneg]
    cases s
    · exact congrArg (fun n => some (Place.of n)) (Int.neg_neg _).symm
    · rfl

theorem place_ofInt {n : Int} (hn : n.natAbs < 2 ^ 64) :
    place (Float.ofInt n) = some (Place.of (unitsOf (roundInt n))) := by
  cases n with
  | ofNat n =>
      have h := place_ofNat hn
      rw [← roundInt_natCast] at h
      exact h
  | negSucc n =>
      have h := place_neg (place_ofNat hn)
      rw [← roundInt_natCast, ← unitsOf_neg, ← roundInt_neg] at h
      exact h

end Conversion

end Binary64
