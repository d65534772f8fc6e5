import RmqttThings.Binary64.Packed

namespace Binary64

open Float.Model (UnpackedFloat Format)
open Float.Model.UnpackedFloat

-- Where a number stands: its multiple of the least positive one, or an infinity.
abbrev Place := WithBot (WithTop Int)

namespace Place

def of (n : Int) : Place := ((n : WithTop Int) : WithBot (WithTop Int))

variable {m n : Int}

@[simp] theorem of_lt_of : of m < of n ↔ m < n := by simp [of]

@[simp] theorem of_le_of : of m ≤ of n ↔ m ≤ n := by simp [of]

@[simp] theorem of_inj : of m = of n ↔ m = n := by simp [of]

@[simp] theorem of_lt_top : of n < ⊤ := WithBot.coe_lt_coe.mpr (WithTop.coe_lt_top n)

@[simp] theorem bot_lt_of : ⊥ < of n := WithBot.bot_lt_coe _

@[simp] theorem of_ne_top : of n ≠ ⊤ := of_lt_top.ne

@[simp] theorem of_ne_bot : of n ≠ ⊥ := bot_lt_of.ne'

@[simp] theorem top_ne_of : ⊤ ≠ of n := of_lt_top.ne'

@[simp] theorem bot_ne_of : ⊥ ≠ of n := bot_lt_of.ne

-- The finite places are those between the infinities.
theorem cases (p : Place) : p = ⊥ ∨ p = ⊤ ∨ ∃ n, p = of n := by
  rcases p with _ | _ | n
  · exact .inl rfl
  · exact .inr (.inl rfl)
  · exact .inr (.inr ⟨n, rfl⟩)

end Place

section Compare

def placeOf : UnpackedFloat → Option Place
  | .notANumber => none
  | .infinity .negative => some ⊥
  | .infinity .positive => some ⊤
  | .zero _ => some (Place.of 0)
  | .finite s m e _ => some (Place.of (s.apply (magnitude m e)))

variable {m m' : Nat} {e e' : Int}

theorem Canonical.cmp_magnitude (h : Canonical m e) (h' : Canonical m' e') :
    (compare e e').then (compare m m') = cmp (Place.of (magnitude m e))
      (Place.of (magnitude m' e')) := by
  have hmono : StrictMono fun n : Nat => Place.of n := fun i k hik => Place.of_lt_of.mpr (by omega)
  rw [h.compare_magnitude h', hmono.cmp_map_eq, cmp_eq_compare]

theorem Canonical.cmp_neg_magnitude (h : Canonical m e) (h' : Canonical m' e') :
    ((compare e e').then (compare m m')).swap = cmp (Place.of (-magnitude m e))
      (Place.of (-magnitude m' e')) := by
  have hanti : StrictAnti fun n : Nat => Place.of (-n) :=
    fun i k hik => Place.of_lt_of.mpr (by omega)
  rw [h.compare_magnitude h', hanti.cmp_map_eq, ← cmp_eq_compare, cmp_swap]

-- IEEE comparison is the order of the places; a NaN has none.
theorem compare_eq {a b : UnpackedFloat} (ha : Packable a) (hb : Packable b) :
    a.compare b = Option.map₂ cmp (placeOf a) (placeOf b) := by
  have hpos {m : Nat} {e : Int} (hm : 0 < m) : 0 < (magnitude m e : Int) :=
    Int.natCast_pos.mpr (magnitude_pos hm)
  have hlt {m n : Int} (h : m < n) : some Ordering.lt = some (cmp (Place.of m) (Place.of n)) := by
    rw [(cmp_eq_lt_iff _ _).mpr (Place.of_lt_of.mpr h)]
  have hgt {m n : Int} (h : n < m) : some Ordering.gt = some (cmp (Place.of m) (Place.of n)) := by
    rw [(cmp_eq_gt_iff _ _).mpr (Place.of_lt_of.mpr h)]
  rcases a with ⟨_ | _⟩ | _ | s | ⟨_ | _, m, e, hm⟩ <;>
    rcases b with ⟨_ | _⟩ | _ | t | ⟨_ | _, m', e', hm'⟩
  case finite.negative.finite.negative => exact congrArg some (ha.1.cmp_neg_magnitude hb.1)
  case finite.positive.finite.positive => exact congrArg some (ha.1.cmp_magnitude hb.1)
  case finite.negative.finite.positive =>
    exact hlt ((Int.neg_neg_of_pos (hpos hm)).trans (hpos hm'))
  case finite.positive.finite.negative =>
    exact hgt ((Int.neg_neg_of_pos (hpos hm')).trans (hpos hm))
  case finite.negative.zero => exact hlt (Int.neg_neg_of_pos (hpos hm))
  case finite.positive.zero => exact hgt (hpos hm)
  case zero.finite.negative => exact hgt (Int.neg_neg_of_pos (hpos hm'))
  case zero.finite.positive => exact hlt (hpos hm')
  all_goals rfl

end Compare

section Order

def place (x : Float) : Option Place := placeOf x.toModel.unpack

theorem packable_toModel (x : Float) : Packable x.toModel.unpack := packable_unpack _

variable {x y : Float} {p q : Place}

theorem compare_toModel (x y : Float) :
    x.toModel.unpack.compare y.toModel.unpack = Option.map₂ cmp (place x) (place y) :=
  compare_eq (packable_toModel x) (packable_toModel y)

theorem lt_iff (x y : Float) : x < y ↔ ∃ p q, place x = some p ∧ place y = some q ∧ p < q := by
  have hmodel : x < y ↔ x.toModel.unpack.compare y.toModel.unpack = some .lt := by
    show decide (x.toModel < y.toModel) = true ↔ _
    rw [decide_eq_true_iff]
    show (x.toModel.unpack.compare y.toModel.unpack == some .lt) = true ↔ _
    exact beq_iff_eq
  rw [hmodel, compare_toModel, Option.map₂_eq_some_iff]
  simp only [Option.mem_def, cmp_eq_lt_iff]

theorem le_iff (x y : Float) : x ≤ y ↔ ∃ p q, place x = some p ∧ place y = some q ∧ p ≤ q := by
  have hmodel : x ≤ y ↔ (x.toModel.unpack.compare y.toModel.unpack).any (·.isLE) = true := by
    show decide (x.toModel ≤ y.toModel) = true ↔ _
    rw [decide_eq_true_iff]
    rfl
  rw [hmodel, compare_toModel]
  cases hx : place x with
  | none => simp
  | some p =>
      cases hy : place y with
      | none => simp
      | some q =>
          simp only [Option.map₂_some_some, Option.any_some, Option.some.injEq, exists_and_left,
            exists_eq_left']
          rcases lt_trichotomy p q with hlt | rfl | hgt
          · simp [(cmp_eq_lt_iff p q).mpr hlt, hlt.le]
          · simp [cmp_self_eq_eq]
          · simp [(cmp_eq_gt_iff p q).mpr hgt, hgt.not_ge]

theorem lt_iff_of_place (hx : place x = some p) (hy : place y = some q) : x < y ↔ p < q := by
  rw [lt_iff]
  simp [hx, hy]

theorem le_iff_of_place (hx : place x = some p) (hy : place y = some q) : x ≤ y ↔ p ≤ q := by
  rw [le_iff]
  simp [hx, hy]

theorem isFinite_iff (x : Float) : x.isFinite = true ↔ ∃ u, place x = some (Place.of u) := by
  show x.toModel.unpack.isFinite = true ↔ _
  rw [place]
  cases x.toModel.unpack with
  | infinity s => cases s <;> simp [isFinite, placeOf]
  | notANumber => simp [isFinite, placeOf]
  | zero s => exact iff_of_true rfl ⟨_, rfl⟩
  | finite s m e hm => exact iff_of_true rfl ⟨_, rfl⟩

end Order

end Binary64
