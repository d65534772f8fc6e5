import RmqttThings.Binary64.Floats

namespace Binary64

open Float.Model (UnpackedFloat Format)
open Float.Model.UnpackedFloat

section Overflow

-- A magnitude that is rounded to 53 bits is packed, or overflows.
def clamp (n : Nat) : Place := if n < 2 ^ 2098 then Place.of n else ⊤

variable {m : Nat} {e : Int}

theorem Canonical.le_iff (h : Canonical m e) : e ≤ 971 ↔ magnitude m e < 2 ^ 2098 := by
  have hle := h.le
  constructor
  · intro he
    calc
      magnitude m e < 2 ^ 53 * 2 ^ (e + 1074).toNat :=
        Nat.mul_lt_mul_of_pos_right h.lt (Nat.two_pow_pos _)
      _ = 2 ^ (53 + (e + 1074).toNat) := (Nat.pow_add 2 53 _).symm
      _ ≤ 2 ^ 2098 := Nat.pow_le_pow_right (by decide) (by omega)
  · intro hlt
    by_contra he
    have hnormal : 2 ^ 52 ≤ m := h.normal.resolve_right (by omega)
    refine absurd hlt (Nat.not_lt.mpr ?_)
    calc
      2 ^ 2098 ≤ 2 ^ (52 + (e + 1074).toNat) := Nat.pow_le_pow_right (by decide) (by omega)
      _ = 2 ^ 52 * 2 ^ (e + 1074).toNat := Nat.pow_add 2 52 _
      _ ≤ magnitude m e := Nat.mul_le_mul_right _ hnormal

theorem Canonical.round53_magnitude (h : Canonical m e) :
    round53 (magnitude m e) = magnitude m e := by
  rw [magnitude, round53_mul_two_pow, round53_of_lt h.lt]

theorem clamp_magnitude (h : Canonical m e) (he : e ≤ 971) :
    clamp (magnitude m e) = Place.of (magnitude m e) :=
  if_pos (h.le_iff.mp he)

-- The magnitude of a result, after it has been packed.
theorem Rounded.placeOf_abs {a : UnpackedFloat} {s : Sign} {n : Nat} (h : Rounded a s n) :
    placeOf (unpack Format.binary64 (pack Format.binary64 a)).abs = some (clamp (round53 n)) := by
  obtain ⟨m, e, hm, rfl, hcanonical, hmagnitude⟩ := h
  rw [← hmagnitude]
  by_cases he : e ≤ 971
  · rw [unpack_pack_finite hcanonical he, clamp_magnitude hcanonical he]
    rfl
  · have hoverflow : ¬magnitude m e < 2 ^ 2098 := fun hlt => he (hcanonical.le_iff.mpr hlt)
    rw [unpack_pack_overflow (by omega), clamp, if_neg hoverflow]
    rfl

end Overflow

section Sub

@[simp] theorem clamp_zero : clamp 0 = Place.of 0 := if_pos (Nat.two_pow_pos 2098)

variable {m : Nat} {e d : Int}

theorem natAbs_apply (s : Sign) (n : Nat) : (s.apply n).natAbs = n := by
  cases s
  · exact (Int.natAbs_neg n).trans (Int.natAbs_natCast n)
  · exact Int.natAbs_natCast n

theorem rounded_normalize {n : Int} (hn : n ≠ 0) (he : -1074 ≤ e) (s : Sign) :
    ∃ t, Rounded (UnpackedFloat.normalize Format.binary64 n e s) t (magnitude n.natAbs e) := by
  rcases lt_trichotomy n 0 with hlt | heq | hgt
  · refine ⟨.negative, ?_⟩
    have habs : (-n).toNat = n.natAbs := by omega
    rw [UnpackedFloat.normalize, compare_lt_iff_lt.mpr hlt, habs]
    exact rounded_round .negative (by omega) he
  · exact absurd heq hn
  · refine ⟨.positive, ?_⟩
    have habs : n.toNat = n.natAbs := by omega
    rw [UnpackedFloat.normalize, compare_gt_iff_gt.mpr hgt, habs]
    exact rounded_round .positive (by omega) he

-- Both operands are multiples of the same power of two.
theorem apply_decreaseExponent (s : Sign) (hd : -1074 ≤ d) (hde : d ≤ e) :
    s.apply (decreaseExponent m e d).1 * 2 ^ (d + 1074).toNat = s.apply (magnitude m e) := by
  have hexp : (e + 1074).toNat = (e - d).toNat + (d + 1074).toNat := by omega
  have hsame : (decreaseExponent m e d).1 * 2 ^ (d + 1074).toNat = magnitude m e := by
    rw [decreaseExponent, Nat.shiftLeft_eq, magnitude, hexp, Nat.pow_add, Nat.mul_assoc]
  rw [← hsame]
  cases s <;> simp [Sign.apply]

theorem placeOf_abs_normalize {n : Int} (hd : -1074 ≤ d) :
    placeOf (unpack Format.binary64
      (pack Format.binary64 (UnpackedFloat.normalize Format.binary64 n d .positive))).abs =
      some (clamp (round53 (n * 2 ^ (d + 1074).toNat).natAbs)) := by
  by_cases hn : n = 0
  · subst hn
    have hzero : UnpackedFloat.normalize Format.binary64 0 d .positive = .zero .positive := by
      rw [UnpackedFloat.normalize, compare_eq_iff_eq.mpr rfl]
    rw [hzero, Int.zero_mul, Int.natAbs_zero, round53_zero, clamp_zero]
    rfl
  · obtain ⟨t, h⟩ := rounded_normalize hn hd .positive
    have habs : (n * 2 ^ (d + 1074).toNat).natAbs = magnitude n.natAbs d := by
      rw [Int.natAbs_mul, Int.natAbs_pow]
      rfl
    rw [h.placeOf_abs, habs]

-- A subtraction with a zero is exact.
theorem placeOf_abs_finite (s : Sign) {hm : 0 < m} (h : Packable (.finite s m e hm)) :
    placeOf (unpack Format.binary64 (pack Format.binary64 (.finite s m e hm))).abs =
      some (clamp (round53 (magnitude m e))) := by
  rw [unpack_pack h, h.1.round53_magnitude, clamp_magnitude h.1 h.2]
  rfl

theorem finite_of_placeOf {a : UnpackedFloat} {u : Int} (h : placeOf a = some (Place.of u)) :
    (∃ s, a = .zero s ∧ u = 0) ∨ ∃ s m e hm, a = .finite s m e hm ∧
      u = s.apply (magnitude m e) := by
  rcases a with ⟨_ | _⟩ | _ | s | ⟨s, m, e, hm⟩
  · cases h
  · cases h
  · cases h
  · exact .inl ⟨s, rfl, (Place.of_inj.mp (Option.some.inj h)).symm⟩
  · exact .inr ⟨s, m, e, hm, rfl, (Place.of_inj.mp (Option.some.inj h)).symm⟩

theorem placeOf_abs_sub {a b : UnpackedFloat} {u v : Int} (ha : Packable a) (hb : Packable b)
    (hu : placeOf a = some (Place.of u)) (hv : placeOf b = some (Place.of v)) :
    placeOf (unpack Format.binary64 (pack Format.binary64 (sub Format.binary64 a b))).abs =
      some (clamp (round53 (u - v).natAbs)) := by
  rcases finite_of_placeOf hu with ⟨s, rfl, rfl⟩ | ⟨s, m, e, hm, rfl, rfl⟩
  · rcases finite_of_placeOf hv with ⟨t, rfl, rfl⟩ | ⟨t, m', e', hm', rfl, rfl⟩
    · rw [Int.sub_zero, Int.natAbs_zero, round53_zero, clamp_zero]
      cases s <;> cases t <;> rfl
    · rw [Int.zero_sub, Int.natAbs_neg, natAbs_apply]
      exact placeOf_abs_finite (-t) hb
  · rcases finite_of_placeOf hv with ⟨t, rfl, rfl⟩ | ⟨t, m', e', hm', rfl, rfl⟩
    · rw [Int.sub_zero, natAbs_apply]
      exact placeOf_abs_finite s ha
    · have hd : -1074 ≤ min e e' := le_min ha.1.le hb.1.le
      rw [← apply_decreaseExponent s hd (min_le_left e e'),
        ← apply_decreaseExponent t hd (min_le_right e e'), ← Int.sub_mul]
      exact placeOf_abs_normalize hd

-- Infinity minus the same infinity is a NaN.
theorem placeOf_abs_sub_infinite {a b : UnpackedFloat} {p q : Place} (ha : placeOf a = some p)
    (hb : placeOf b = some q) (h : p = ⊥ ∨ p = ⊤ ∨ q = ⊥ ∨ q = ⊤) :
    placeOf (unpack Format.binary64 (pack Format.binary64 (sub Format.binary64 a b))).abs =
      if p = q then none else some ⊤ := by
  have hinfinite (s : Sign) :
      placeOf (unpack Format.binary64 (pack Format.binary64 (.infinity s))).abs = some ⊤ := by
    cases s <;> rfl
  have hsub (s : Sign) (hne : p ≠ q) (hresult : sub Format.binary64 a b = .infinity s) :
      placeOf (unpack Format.binary64 (pack Format.binary64 (sub Format.binary64 a b))).abs =
        if p = q then none else some ⊤ := by
    rw [hresult, hinfinite, if_neg hne]
  rcases a with ⟨_ | _⟩ | _ | s | ⟨s, m, e, hm⟩ <;> rcases b with
    ⟨_ | _⟩ | _ | t | ⟨t, m', e', hm'⟩ <;>
    cases ha <;> cases hb
  all_goals first
    | exact (if_pos rfl).symm
    | exact hsub .positive (by simp) rfl
    | exact hsub .negative (by simp) rfl
    | simp at h

end Sub

section Distance

variable {x y : Float} {p q : Place} {u v : Int}

theorem place_abs (x : Float) : place x.abs = placeOf x.toModel.unpack.abs := by
  have hpackable : Packable x.toModel.unpack.abs := by
    have h := packable_toModel x
    cases hx : x.toModel.unpack with
    | finite s m e hm =>
        rw [hx] at h
        exact h
    | _ => trivial
  exact congrArg placeOf (unpack_pack hpackable)

theorem place_abs_sub (hx : place x = some (Place.of u)) (hy : place y = some (Place.of v)) :
    place (x - y).abs = some (clamp (round53 (u - v).natAbs)) := by
  rw [place_abs]
  exact placeOf_abs_sub (packable_toModel x) (packable_toModel y) hx hy

theorem place_abs_sub_infinite (hx : place x = some p) (hy : place y = some q)
    (h : p = ⊥ ∨ p = ⊤ ∨ q = ⊥ ∨ q = ⊤) :
    place (x - y).abs = if p = q then none else some ⊤ := by
  rw [place_abs]
  exact placeOf_abs_sub_infinite hx hy h

theorem place_abs_sub_nan (h : place x = none ∨ place y = none) : place (x - y).abs = none := by
  have hnan {z : Float} (hz : place z = none) : z.toModel.unpack = .notANumber := by
    cases ha : z.toModel.unpack with
    | notANumber => rfl
    | infinity s =>
        rw [place, ha] at hz
        cases s <;> cases hz
    | _ =>
        rw [place, ha] at hz
        cases hz
  have hsub : sub Format.binary64 x.toModel.unpack y.toModel.unpack = .notANumber := by
    rcases h with hx | hy
    · rw [hnan hx, sub]
    · rw [hnan hy]
      cases x.toModel.unpack <;> rfl
  have hmodel : (x - y).toModel.unpack =
      unpack Format.binary64
        (pack Format.binary64 (sub Format.binary64 x.toModel.unpack y.toModel.unpack)) := rfl
  rw [place_abs, hmodel, hsub]
  rfl

-- Only two numbers that are no NaN have a distance.
theorem places_of_abs_sub_lt {z : Float} (h : (x - y).abs < z) :
    ∃ p q, place x = some p ∧ place y = some q := by
  have hplaces : place x ≠ none ∧ place y ≠ none := by
    rw [← not_or]
    intro hnan
    obtain ⟨_, _, hd, -⟩ := (lt_iff _ _).mp h
    rw [place_abs_sub_nan hnan] at hd
    cases hd
  obtain ⟨p, hp⟩ := Option.ne_none_iff_exists'.mp hplaces.1
  obtain ⟨q, hq⟩ := Option.ne_none_iff_exists'.mp hplaces.2
  exact ⟨p, q, hp, hq⟩

-- Both are the same infinity, so that they have no distance.
def SameInfinity (p q : Place) : Prop := p = q ∧ (p = ⊥ ∨ p = ⊤)

-- The exact distance is rounded to less than the tolerance.
def Near (j : Nat) (p q : Place) : Prop :=
  ∃ u v : Int, p = Place.of u ∧ q = Place.of v ∧ (u - v).natAbs < 2 ^ (j + 54) - 2 ^ j

theorem near_of {j : Nat} {u v : Int} :
    Near j (Place.of u) (Place.of v) ↔ (u - v).natAbs < 2 ^ (j + 54) - 2 ^ j := by
  constructor
  · rintro ⟨_, _, hu, hv, h⟩
    rwa [← Place.of_inj.mp hu, ← Place.of_inj.mp hv] at h
  · exact fun h => ⟨u, v, rfl, rfl, h⟩

theorem near_self (j : Nat) (u : Int) : Near j (Place.of u) (Place.of u) := by
  have hlt : 2 ^ j < 2 ^ (j + 54) := pow_lt_pow_right₀ Nat.one_lt_two (by omega)
  rw [near_of, Int.sub_self, Int.natAbs_zero]
  exact Nat.sub_pos_of_lt hlt

theorem clamp_lt_iff {j : Nat} (hj : j + 54 ≤ 2098) (n : Nat) :
    clamp (round53 n) < Place.of (2 ^ (j + 54)) ↔ n < 2 ^ (j + 54) - 2 ^ j := by
  rw [← round53_lt_two_pow_iff]
  by_cases hlt : round53 n < 2 ^ 2098
  · have hcast : ((2 ^ (j + 54) : Nat) : Int) = 2 ^ (j + 54) := Nat.cast_pow 2 (j + 54)
    rw [clamp, if_pos hlt, Place.of_lt_of, ← hcast]
    exact Int.ofNat_lt
  · have hpow : 2 ^ (j + 54) ≤ 2 ^ 2098 := Nat.pow_le_pow_right (by decide) hj
    rw [clamp, if_neg hlt]
    exact iff_of_false not_top_lt fun h => hlt (h.trans_le hpow)

variable {ε : Float} {j : Nat}

theorem not_near_infinite (h : p = ⊥ ∨ p = ⊤ ∨ q = ⊥ ∨ q = ⊤) : ¬Near j p q := by
  rintro ⟨u, v, rfl, rfl, -⟩
  simp at h

theorem finite_or_infinite (p q : Place) :
    (∃ u v, p = Place.of u ∧ q = Place.of v) ∨ p = ⊥ ∨ p = ⊤ ∨ q = ⊥ ∨ q = ⊤ := by
  rcases Place.cases p with hp | hp | ⟨u, hu⟩
  · exact .inr (.inl hp)
  · exact .inr (.inr (.inl hp))
  · rcases Place.cases q with hq | hq | ⟨v, hv⟩
    · exact .inr (.inr (.inr (.inl hq)))
    · exact .inr (.inr (.inr (.inr hq)))
    · exact .inl ⟨u, v, hu, hv⟩

theorem abs_sub_lt_iff (hε : place ε = some (Place.of (2 ^ (j + 54)))) (hj : j + 54 ≤ 2098)
    (hx : place x = some p) (hy : place y = some q) : (x - y).abs < ε ↔ Near j p q := by
  rcases finite_or_infinite p q with ⟨u, v, rfl, rfl⟩ | hinfinite
  · rw [lt_iff_of_place (place_abs_sub hx hy) hε, clamp_lt_iff hj, near_of]
  · refine iff_of_false (fun hlt => ?_) (not_near_infinite hinfinite)
    obtain ⟨d, _, hd, he, hlt⟩ := (lt_iff _ _).mp hlt
    rw [place_abs_sub_infinite hx hy hinfinite] at hd
    split_ifs at hd
    rw [← Option.some.inj hd] at hlt
    exact not_top_lt hlt

theorem le_abs_sub_iff (hε : place ε = some (Place.of (2 ^ (j + 54)))) (hj : j + 54 ≤ 2098)
    (hx : place x = some p) (hy : place y = some q) :
    ε ≤ (x - y).abs ↔ ¬SameInfinity p q ∧ ¬Near j p q := by
  rcases finite_or_infinite p q with ⟨u, v, rfl, rfl⟩ | hinfinite
  · have hsame : ¬SameInfinity (Place.of u) (Place.of v) := by simp [SameInfinity]
    rw [le_iff_of_place hε (place_abs_sub hx hy), ← not_lt, clamp_lt_iff hj, near_of,
      and_iff_right hsame]
  · rw [and_iff_left (not_near_infinite hinfinite)]
    by_cases hpq : p = q
    · have hsame : SameInfinity p q := by
        refine ⟨hpq, ?_⟩
        subst hpq
        tauto
      refine iff_of_false (fun hle => ?_) (not_not_intro hsame)
      obtain ⟨_, d, -, hd, -⟩ := (le_iff _ _).mp hle
      rw [place_abs_sub_infinite hx hy hinfinite, if_pos hpq] at hd
      cases hd
    · have hd := place_abs_sub_infinite hx hy hinfinite
      rw [if_neg hpq] at hd
      rw [le_iff_of_place hε hd]
      exact iff_of_true le_top fun hsame => hpq hsame.1

end Distance

end Binary64
