import Mathlib.Algebra.Order.Round
import Mathlib.Algebra.BigOperators.Group.List.Basic
import Mathlib.Tactic

/-!
# Rounding with halves away from zero

`round` sends halves up; a decimal printer sends them away from zero, so that a
number and its negation print alike.

## Main definitions

* `roundAway` — the nearest integer, halves away from zero.

## Main results

* `roundAway_mono` — rounding keeps the order.
* `abs_sub_roundAway` — it is off by half a unit at most.
* `abs_add_sum_roundAway_sub_le` — a column of rounded terms is off the rounded
  sum by half a unit for each term and half a unit for the sum at most.
-/

section Rounding

variable {α : Type*} [Field α] [LinearOrder α] [IsStrictOrderedRing α] [FloorRing α]

/-- The nearest integer, halves away from zero. -/
def roundAway (x : α) : ℤ := if x < 0 then -round (-x) else round x

theorem abs_sub_roundAway (x : α) : |x - roundAway x| ≤ 1 / 2 := by
  unfold roundAway
  split
  · have hneg := abs_sub_round (-x)
    rw [← abs_neg] at hneg
    push_cast
    convert hneg using 2
    ring
  · exact abs_sub_round x

theorem roundAway_intCast (n : ℤ) : roundAway (n : α) = n := by
  unfold roundAway
  split
  · rw [← Int.cast_neg, round_intCast, neg_neg]
  · exact round_intCast n

private theorem round_mono {x y : α} (h : x ≤ y) : round x ≤ round y := by
  rw [round_eq, round_eq]
  exact Int.floor_le_floor (by gcongr)

private theorem round_nonneg {x : α} (h : 0 ≤ x) : 0 ≤ round x := by
  have hzero := round_mono h
  rwa [round_zero] at hzero

/-- **Rounding keeps the order.** -/
theorem roundAway_mono {x y : α} (h : x ≤ y) : roundAway x ≤ roundAway y := by
  unfold roundAway
  by_cases hx : x < 0 <;> by_cases hy : y < 0
  · rw [if_pos hx, if_pos hy]
    exact neg_le_neg (round_mono (neg_le_neg h))
  · -- the signs differ, so zero lies between the two
    rw [if_pos hx, if_neg hy]
    have hneg := round_nonneg (neg_nonneg.mpr hx.le)
    have hpos := round_nonneg (not_lt.mp hy)
    omega
  · exact absurd (h.trans_lt hy) hx
  · rw [if_neg hx, if_neg hy]
    exact round_mono h

/-- **Rounded apart, the terms of a sum are off by half a unit each at most.** -/
theorem abs_sum_sub_sum_roundAway_le (l : List α) :
    |l.sum - ((l.map roundAway).sum : ℤ)| ≤ (l.length : α) / 2 := by
  induction l with
  | nil => simp
  | cons x l ih =>
    have hx := abs_sub_roundAway x
    have hsplit : (x :: l).sum - (((x :: l).map roundAway).sum : ℤ)
        = (x - roundAway x) + (l.sum - ((l.map roundAway).sum : ℤ)) := by
      simp only [List.sum_cons, List.map_cons, Int.cast_add]
      ring
    rw [hsplit, List.length_cons]
    calc |(x - roundAway x) + (l.sum - ((l.map roundAway).sum : ℤ))|
        ≤ |x - roundAway x| + |l.sum - ((l.map roundAway).sum : ℤ)| := abs_add_le _ _
      _ ≤ 1 / 2 + (l.length : α) / 2 := add_le_add hx ih
      _ = ((l.length + 1 : ℕ) : α) / 2 := by push_cast; ring

/-- **A column of rounded terms is off the rounded sum** by half a unit for each
term and half a unit for the sum at most. -/
theorem abs_add_sum_roundAway_sub_le (n : ℤ) (l : List α) :
    2 * |n + (l.map roundAway).sum - roundAway ((n : α) + l.sum)| ≤ l.length + 1 := by
  have hterms := abs_sum_sub_sum_roundAway_le l
  have hsum := abs_sub_roundAway ((n : α) + l.sum)
  generalize roundAway ((n : α) + l.sum) = total at hsum ⊢
  generalize (l.map roundAway).sum = column at hterms ⊢
  rw [abs_le] at hterms hsum
  have hcast : |((n + column - total : ℤ) : α)| ≤ ((l.length : α) + 1) / 2 := by
    rw [abs_le]
    push_cast
    constructor <;> linarith
  rw [← Int.cast_abs, le_div_iff₀ (by norm_num), mul_comm] at hcast
  exact_mod_cast hcast

/-- Whole terms are not rounded. -/
theorem add_sum_roundAway_of_int (n : ℤ) {l : List α} (h : ∀ x ∈ l, ∃ m : ℤ, x = m) :
    n + (l.map roundAway).sum = roundAway ((n : α) + l.sum) := by
  have hsum : l.sum = ((l.map roundAway).sum : ℤ) := by
    induction l with
    | nil => simp
    | cons x l ih =>
      obtain ⟨m, rfl⟩ := h x List.mem_cons_self
      rw [List.sum_cons, List.map_cons, List.sum_cons, roundAway_intCast, Int.cast_add,
        ih fun y hy => h y (List.mem_cons_of_mem _ hy)]
  rw [hsum, ← Int.cast_add, roundAway_intCast]

end Rounding
