import RmqttThings.Paging.Slices
import Mathlib.Data.List.Induction

namespace Paging

variable {α : Type} {stride : Nat}

-- The rows at the places `0`, `stride`, `2 * stride`, and so on.
def every (stride : Nat) (order : List α) : List α :=
  (List.range (pageCount order.length stride)).filterMap fun index => order[index * stride]?

-- The rows whose number, counted from zero, is a multiple of the stride.
def numbered (stride : Nat) (order : List α) : List α :=
  (order.zipIdx.filter fun entry => entry.2 % stride = 0).map Prod.fst

theorem pageCount_succ (hstride : 0 < stride) (total : Nat) :
    pageCount (total + 1) stride = total / stride + 1 := by
  rw [pageCount, show total + 1 + stride - 1 = total + stride by omega, Nat.add_div_right _ hstride]

theorem pageCount_eq (hstride : 0 < stride) (total : Nat) :
    pageCount total stride = total / stride + if total % stride = 0 then 0 else 1 := by
  have hmod := Nat.mod_lt total hstride
  have hdiv := Nat.div_add_mod total stride
  split_ifs with hzero
  · rw [pageCount, show total + stride - 1 = (stride - 1) + stride * (total / stride) by omega,
      Nat.add_mul_div_left _ _ hstride, Nat.div_eq_of_lt (by omega)]
    omega
  · rw [pageCount, show total + stride - 1 = (total % stride - 1) + stride * (total / stride + 1) by
        rw [Nat.mul_add]
        omega,
      Nat.add_mul_div_left _ _ hstride, Nat.div_eq_of_lt (by omega)]
    omega

-- One row more is one sample more if its place is a multiple of the stride.
theorem every_concat (hstride : 0 < stride) (order : List α) (row : α) :
    every stride (order ++ [row]) = every stride order ++ if order.length % stride =
      0 then [row] else [] := by
  have hold : (List.range (pageCount order.length stride)).filterMap
      (fun index => (order ++ [row])[index * stride]?) =
      every stride order := by
    apply List.filterMap_congr
    intro index hindex
    exact List.getElem?_append_left (mul_lt_of_lt_pageCount hstride (List.mem_range.mp hindex))
  have hlength : (order ++ [row]).length = order.length + 1 := by simp
  rw [← hold, every, hlength, pageCount_succ hstride, pageCount_eq hstride]
  split_ifs with hzero
  · have hplace : order.length / stride * stride = order.length :=
      Nat.div_mul_cancel (Nat.dvd_of_mod_eq_zero hzero)
    rw [List.range_succ, List.filterMap_append, Nat.add_zero]
    simp [hplace]
  · rw [List.append_nil]

theorem numbered_eq_every (hstride : 0 < stride) (order : List α) :
    numbered stride order = every stride order := by
  induction order using List.reverseRecOn with
  | nil => simp [numbered, every]
  | append_singleton order row ih =>
      rw [every_concat hstride, ← ih, numbered, List.zipIdx_append, List.filter_append,
        List.map_append]
      by_cases hzero : order.length % stride = 0
      · simp [numbered, hzero]
      · simp [numbered, hzero]

theorem length_every (hstride : 0 < stride) (order : List α) :
    (every stride order).length = pageCount order.length stride := by
  induction order using List.reverseRecOn with
  | nil => simp [every, pageCount_eq hstride]
  | append_singleton order row ih =>
      rw [every_concat hstride, List.length_append, ih, List.length_append, List.length_singleton,
        pageCount_succ hstride, pageCount_eq hstride]
      split_ifs
      · rfl
      · rfl

theorem every_one (order : List α) : every 1 order = order := by
  induction order using List.reverseRecOn with
  | nil => simp [every]
  | append_singleton order row ih => rw [every_concat Nat.one_pos, ih, if_pos (Nat.mod_one _)]

end Paging
