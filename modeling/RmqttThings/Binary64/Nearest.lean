import Mathlib.Algebra.Order.Ring.Int
import Mathlib.Data.Nat.Log
import Mathlib.Tactic.Positivity

namespace Binary64

section Quotient

-- The quotient by a power of two that is nearest, ties to even.
def nearestEven (m k : Nat) : Nat :=
  if 2 * (m % 2 ^ k) < 2 ^ k then m / 2 ^ k
  else if 2 ^ k < 2 * (m % 2 ^ k) then m / 2 ^ k + 1
  else m / 2 ^ k + m / 2 ^ k % 2

variable (m n j k : Nat)

theorem nearestEven_bounds : m / 2 ^ k ≤ nearestEven m k ∧ nearestEven m k ≤ m / 2 ^ k + 1 := by
  unfold nearestEven
  split_ifs <;> omega

@[simp] theorem nearestEven_mul_two_pow : nearestEven (m * 2 ^ k) k = m := by
  have hpos : 0 < 2 ^ k := Nat.two_pow_pos k
  simp [nearestEven, hpos]

@[simp] theorem nearestEven_zero : nearestEven m 0 = m := by
  have h := nearestEven_mul_two_pow m 0
  rwa [Nat.pow_zero, Nat.mul_one] at h

-- Only the fraction that is dropped counts.
theorem nearestEven_shift : nearestEven (m * 2 ^ j) (k + j) = nearestEven m k := by
  have hpos : 0 < 2 ^ j := Nat.two_pow_pos j
  have hdiv : m * 2 ^ j / 2 ^ (k + j) = m / 2 ^ k := by
    rw [Nat.pow_add, Nat.mul_div_mul_right _ _ hpos]
  have hmod : m * 2 ^ j % 2 ^ (k + j) = m % 2 ^ k * 2 ^ j := by
    rw [Nat.pow_add, Nat.mul_mod_mul_right]
  have hlt (a b : Nat) : 2 * (a * 2 ^ j) < b * 2 ^ j ↔ 2 * a < b := by
    rw [← Nat.mul_assoc]
    exact Nat.mul_lt_mul_right hpos
  have hgt (a b : Nat) : b * 2 ^ j < 2 * (a * 2 ^ j) ↔ b < 2 * a := by
    rw [← Nat.mul_assoc]
    exact Nat.mul_lt_mul_right hpos
  unfold nearestEven
  rw [hdiv, hmod, Nat.pow_add]
  simp only [hlt, hgt]

variable {m n}

theorem nearestEven_mono (h : m ≤ n) : nearestEven m k ≤ nearestEven n k := by
  have hdiv : m / 2 ^ k ≤ n / 2 ^ k := Nat.div_le_div_right h
  by_cases hsame : m / 2 ^ k = n / 2 ^ k
  · have hmod : m % 2 ^ k ≤ n % 2 ^ k := by
      have hm := Nat.div_add_mod m (2 ^ k)
      have hn := Nat.div_add_mod n (2 ^ k)
      rw [hsame] at hm
      omega
    unfold nearestEven
    rw [hsame]
    split_ifs <;> omega
  · have hm := nearestEven_bounds m k
    have hn := nearestEven_bounds n k
    omega

end Quotient

section Round

-- The bits beyond the first 53.
def excess (n : Nat) : Nat := n.log2 - 52

-- The nearest number with 53 significant bits, ties to even.
def round53 (n : Nat) : Nat := nearestEven n (excess n) * 2 ^ excess n

variable {m n j : Nat}

theorem excess_of_lt (h : n < 2 ^ 53) : excess n = 0 := by
  by_cases hn : n = 0
  · simp [excess, hn]
  · have hlog : n.log2 < 53 := (Nat.log2_lt hn).mpr h
    rw [excess]
    omega

theorem round53_of_lt (h : n < 2 ^ 53) : round53 n = n := by
  rw [round53, excess_of_lt h, nearestEven_zero, Nat.pow_zero, Nat.mul_one]

@[simp] theorem round53_zero : round53 0 = 0 := round53_of_lt (by decide)

theorem quotient_lt (n : Nat) : n / 2 ^ excess n < 2 ^ 53 := by
  rw [Nat.div_lt_iff_lt_mul (Nat.two_pow_pos _), ← Nat.pow_add]
  have hlt : n < 2 ^ (n.log2 + 1) := Nat.lt_log2_self
  have hle : 2 ^ (n.log2 + 1) ≤ 2 ^ (53 + excess n) :=
    Nat.pow_le_pow_right (by decide) (by rw [excess]; omega)
  exact hlt.trans_le hle

theorem significand_le (n : Nat) : nearestEven n (excess n) ≤ 2 ^ 53 := by
  have hlt := quotient_lt n
  have hbounds := nearestEven_bounds n (excess n)
  omega

theorem le_quotient (h : 52 ≤ n.log2) : 2 ^ 52 ≤ n / 2 ^ excess n := by
  have hn : n ≠ 0 := by
    rintro rfl
    simp at h
  rw [Nat.le_div_iff_mul_le (Nat.two_pow_pos _), ← Nat.pow_add, excess, Nat.add_sub_of_le h]
  exact Nat.log2_self_le hn

theorem le_significand (h : 52 ≤ n.log2) : 2 ^ 52 ≤ nearestEven n (excess n) :=
  (le_quotient h).trans (nearestEven_bounds n (excess n)).1

theorem significand_pos (h : 0 < n) : 0 < nearestEven n (excess n) := by
  by_cases hlog : 52 ≤ n.log2
  · exact (Nat.two_pow_pos 52).trans_le (le_significand hlog)
  · have hexcess : excess n = 0 := by
      rw [excess]
      omega
    rwa [hexcess, nearestEven_zero]

theorem log2_mul_two_pow (h : n ≠ 0) (j : Nat) : (n * 2 ^ j).log2 = n.log2 + j := by
  have hlower : 2 ^ (n.log2 + j) ≤ n * 2 ^ j := by
    rw [Nat.pow_add]
    exact Nat.mul_le_mul_right _ (Nat.log2_self_le h)
  have hupper : n * 2 ^ j < 2 ^ (n.log2 + j + 1) := by
    have hlt : n < 2 ^ (n.log2 + 1) := Nat.lt_log2_self
    have hmul := Nat.mul_lt_mul_of_pos_right hlt (Nat.two_pow_pos j)
    rwa [← Nat.pow_add, Nat.add_right_comm] at hmul
  have hne : n * 2 ^ j ≠ 0 := Nat.mul_ne_zero h (Nat.two_pow_pos j).ne'
  exact (Nat.log2_eq_iff hne).mpr ⟨hlower, hupper⟩

-- Scaling by a power of two commutes with rounding.
theorem round53_mul_two_pow (n j : Nat) : round53 (n * 2 ^ j) = round53 n * 2 ^ j := by
  by_cases hn : n = 0
  · simp [hn]
  have hlog := log2_mul_two_pow hn j
  by_cases hlarge : 52 ≤ n.log2
  · have hexcess : excess (n * 2 ^ j) = excess n + j := by
      rw [excess, excess, hlog]
      omega
    rw [round53, hexcess, nearestEven_shift, round53, Nat.pow_add, Nat.mul_assoc]
  · have hsmall : excess n = 0 := by
      rw [excess]
      omega
    -- The number has bits to spare, and its multiple only gets zeros.
    obtain ⟨i, hi⟩ : ∃ i, j = i + excess (n * 2 ^ j) := by
      refine Nat.exists_eq_add_of_le' ?_
      rw [excess, hlog]
      omega
    have hsplit : n * 2 ^ j = n * 2 ^ i * 2 ^ excess (n * 2 ^ j) := by
      rw [Nat.mul_assoc, ← Nat.pow_add, ← hi]
    have hexact : nearestEven (n * 2 ^ j) (excess (n * 2 ^ j)) = n * 2 ^ i := by
      generalize excess (n * 2 ^ j) = k at hsplit
      rw [hsplit, nearestEven_mul_two_pow]
    rw [round53, hexact, ← hsplit, round53, hsmall, nearestEven_zero, Nat.pow_zero, Nat.mul_one]

theorem round53_of_le (h : n ≤ 2 ^ 53) : round53 n = n := by
  rcases Nat.lt_or_eq_of_le h with hlt | rfl
  · exact round53_of_lt hlt
  · decide

theorem round53_le_two_pow (h : n < 2 ^ j) : round53 n ≤ 2 ^ j := by
  by_cases hn : n = 0
  · simp [hn]
  have hlog : n.log2 < j := (Nat.log2_lt hn).mpr h
  by_cases hlarge : 52 ≤ n.log2
  · calc
      round53 n ≤ 2 ^ 53 * 2 ^ excess n := Nat.mul_le_mul_right _ (significand_le n)
      _ = 2 ^ (53 + excess n) := (Nat.pow_add 2 53 (excess n)).symm
      _ ≤ 2 ^ j := Nat.pow_le_pow_right (by decide) (by rw [excess]; omega)
  · have hsmall : n < 2 ^ 53 := (Nat.log2_lt hn).mp (by omega)
    rw [round53_of_lt hsmall]
    exact h.le

theorem two_pow_le_round53 (h : n ≠ 0) : 2 ^ n.log2 ≤ round53 n := by
  by_cases hlarge : 52 ≤ n.log2
  · calc
      2 ^ n.log2 = 2 ^ 52 * 2 ^ excess n := by rw [← Nat.pow_add, excess, Nat.add_sub_of_le hlarge]
      _ ≤ round53 n := Nat.mul_le_mul_right _ (le_significand hlarge)
  · have hsmall : n < 2 ^ 53 := (Nat.log2_lt h).mp (by omega)
    rw [round53_of_lt hsmall]
    exact Nat.log2_self_le h

theorem round53_mono (h : m ≤ n) : round53 m ≤ round53 n := by
  by_cases hm : m = 0
  · simp [hm]
  have hn : n ≠ 0 := by omega
  have hlog : m.log2 ≤ n.log2 := (Nat.le_log2 hn).mpr ((Nat.log2_self_le hm).trans h)
  rcases Nat.lt_or_eq_of_le hlog with hlt | heq
  · calc
      round53 m ≤ 2 ^ (m.log2 + 1) := round53_le_two_pow Nat.lt_log2_self
      _ ≤ 2 ^ n.log2 := Nat.pow_le_pow_right (by decide) hlt
      _ ≤ round53 n := two_pow_le_round53 hn
  · rw [round53, round53, excess, excess, heq]
    exact Nat.mul_le_mul_right _ (nearestEven_mono _ h)

-- What is rounded up to a power of two lies less than half a unit in the last place below it.
theorem round53_lt_two_pow_iff (n j : Nat) :
    round53 n < 2 ^ (j + 54) ↔ n < 2 ^ (j + 54) - 2 ^ j := by
  have htop : 2 ^ (j + 54) - 2 ^ j = (2 ^ 54 - 1) * 2 ^ j := by
    rw [Nat.pow_add, Nat.sub_mul, Nat.mul_comm, Nat.one_mul]
  constructor
  · intro h
    by_contra hge
    have hround : round53 (2 ^ (j + 54) - 2 ^ j) = 2 ^ (j + 54) := by
      have hlast : round53 (2 ^ 54 - 1) = 2 ^ 54 := by decide
      rw [htop, round53_mul_two_pow, hlast, ← Nat.pow_add, Nat.add_comm]
    have hmono := round53_mono (Nat.le_of_not_lt hge)
    omega
  · intro h
    have hpow : 2 ^ (j + 54) = 2 ^ 53 * 2 ^ (j + 1) := by rw [← Nat.pow_add, Nat.add_comm 53]
    by_cases hn : n = 0
    · simp [hn]
    have hlog : n.log2 < j + 54 := (Nat.log2_lt hn).mpr (by omega)
    by_cases hfull : n.log2 = j + 53
    · have hexcess : excess n = j + 1 := by
        rw [excess]
        omega
      have hlt : nearestEven n (j + 1) < 2 ^ 53 := by
        have hbounds := nearestEven_bounds n (j + 1)
        have hquotient := quotient_lt n
        rw [hexcess] at hquotient
        by_cases hlast : n / 2 ^ (j + 1) = 2 ^ 53 - 1
        · -- The fraction is less than a half.
          have hsplit := Nat.div_add_mod n (2 ^ (j + 1))
          rw [hlast] at hsplit
          rw [Nat.pow_succ] at hsplit hpow
          have hdown : 2 * (n % 2 ^ (j + 1)) < 2 ^ (j + 1) := by
            rw [Nat.pow_succ]
            omega
          rw [nearestEven, if_pos hdown, hlast]
          decide
        · omega
      rw [round53, hexcess, hpow]
      exact Nat.mul_lt_mul_of_pos_right hlt (Nat.two_pow_pos _)
    · have hsmall : n < 2 ^ (j + 53) := (Nat.log2_lt hn).mp (by omega)
      have hle := round53_le_two_pow hsmall
      rw [Nat.pow_succ 2 (j + 53)]
      have hpos : 0 < 2 ^ (j + 53) := Nat.two_pow_pos _
      omega

end Round

section Signed

def roundInt (n : Int) : Int := if n < 0 then -(round53 n.natAbs : Int) else round53 n.natAbs

theorem roundInt_natCast (n : Nat) : roundInt n = round53 n := by
  have hnonneg : ¬(n : Int) < 0 := by omega
  rw [roundInt, if_neg hnonneg, Int.natAbs_natCast]

theorem roundInt_neg (n : Int) : roundInt (-n) = -roundInt n := by
  rcases lt_trichotomy n 0 with h | rfl | h
  · have hneg : ¬-n < 0 := by omega
    rw [roundInt, roundInt, if_pos h, if_neg hneg, Int.natAbs_neg, neg_neg]
  · simp [roundInt]
  · have hneg : -n < 0 := by omega
    have hpos : ¬n < 0 := by omega
    rw [roundInt, roundInt, if_neg hpos, if_pos hneg, Int.natAbs_neg]

theorem roundInt_mono {m n : Int} (h : m ≤ n) : roundInt m ≤ roundInt n := by
  by_cases hn : n < 0
  · have hm : m < 0 := by omega
    have hround : round53 n.natAbs ≤ round53 m.natAbs := round53_mono (by omega)
    rw [roundInt, roundInt, if_pos hm, if_pos hn]
    omega
  · rw [roundInt, roundInt, if_neg hn]
    split_ifs with hm
    · omega
    · exact Int.ofNat_le.mpr (round53_mono (by omega))

theorem roundInt_of_natAbs_le {n : Int} (h : n.natAbs ≤ 2 ^ 53) : roundInt n = n := by
  rw [roundInt, round53_of_le h]
  split_ifs <;> omega

end Signed

end Binary64
