import Mathlib.Data.Prod.Lex
import Mathlib.Tactic

/-!
# Doubles

The double nearest to a number, the number that a double is, and the order of doubles.
Comparisons with NaN are all false; the other doubles are ordered by their sign, then
their exponent, then their mantissa.

## Main definitions

* `ofRat` — the double nearest to a rational number.
* `value?` — the number that a double is.
* `rank` — the place of a double among the others.

## Main results

* `lt_iff`, `le_iff`, `beq_iff` — comparisons are comparisons of places.
-/

namespace Double

open Float.Model Float.Model.UnpackedFloat

/-- An integer as a mantissa, before it is rounded. -/
def unrounded (n : ℤ) : UnpackedFloat :=
  if h : n = 0 then .zero .positive
  else .finite (if n < 0 then .negative else .positive) n.natAbs 0 (Int.natAbs_pos.mpr h)

/-- The double nearest to a rational number, ties to the even mantissa. -/
def ofRat (q : ℚ) : Float :=
  .ofModel (.pack (UnpackedFloat.div .binary64 (unrounded q.num) (unrounded q.den)))

/-- The number that a double is, unless it is infinite or NaN. -/
def value? (x : Float) : Option ℚ :=
  match x.toModel.unpack with
  | .zero _ => some 0
  | .finite sign mantissa exponent _ =>
    some ((sign.apply (mantissa * 2 ^ exponent.toNat : ℕ) : ℤ) / (2 ^ (-exponent).toNat : ℕ))
  | .infinity _ | .notANumber => none

/-! ### The order of doubles -/

/-- Places among the doubles: first the sign, then the exponent, then the mantissa. -/
abbrev Rank := ℤ ×ₗ ℤ ×ₗ ℤ

/-- The place of an unpacked double; NaN has none. -/
def unpackedRank : UnpackedFloat → Option Rank
  | .infinity .negative => some (toLex (-2, toLex (0, 0)))
  | .finite .negative mantissa exponent _ => some (toLex (-1, toLex (-exponent, -mantissa)))
  | .zero _ => some (toLex (0, toLex (0, 0)))
  | .finite .positive mantissa exponent _ => some (toLex (1, toLex (exponent, mantissa)))
  | .infinity .positive => some (toLex (2, toLex (0, 0)))
  | .notANumber => none

/-- The place of a double. -/
def rank (x : Float) : Option Rank := unpackedRank x.toModel.unpack

theorem compare_natCast (m n : ℕ) : compare (m : ℤ) (n : ℤ) = compare m n := by
  rcases lt_trichotomy m n with h | rfl | h
  · rw [compare_lt_iff_lt.mpr h, compare_lt_iff_lt.mpr (Int.ofNat_lt.mpr h)]
  · rw [compare_eq_iff_eq.mpr rfl, compare_eq_iff_eq.mpr rfl]
  · rw [compare_gt_iff_gt.mpr h, compare_gt_iff_gt.mpr (Int.ofNat_lt.mpr h)]

theorem compare_neg (a b : ℤ) : compare (-a) (-b) = (compare a b).swap := by
  rcases lt_trichotomy a b with h | rfl | h
  · rw [compare_lt_iff_lt.mpr h, compare_gt_iff_gt.mpr (neg_lt_neg h)]
    rfl
  · rw [compare_eq_iff_eq.mpr rfl, compare_eq_iff_eq.mpr rfl]
    rfl
  · rw [compare_gt_iff_gt.mpr h, compare_lt_iff_lt.mpr (neg_lt_neg h)]
    rfl

/-- **Doubles compare as their places do.** -/
theorem compare_eq (a b : UnpackedFloat) :
    a.compare b = (unpackedRank a).bind fun r => (unpackedRank b).map fun s => compare r s := by
  -- places of one sign compare by exponent and mantissa, the others by their signs
  have hpos : ∀ (m₁ m₂ : ℕ) (e₁ e₂ : ℤ),
      compare (toLex (1, toLex (e₁, (m₁ : ℤ))) : Rank) (toLex (1, toLex (e₂, (m₂ : ℤ)))) =
        (compare e₁ e₂).then (compare m₁ m₂) := by
    intro m₁ m₂ e₁ e₂
    rw [← compare_natCast]
    rfl
  have hneg : ∀ (m₁ m₂ : ℕ) (e₁ e₂ : ℤ),
      compare (toLex (-1, toLex (-e₁, -(m₁ : ℤ))) : Rank) (toLex (-1, toLex (-e₂, -(m₂ : ℤ)))) =
        ((compare e₁ e₂).then (compare m₁ m₂)).swap := by
    intro m₁ m₂ e₁ e₂
    rw [Ordering.swap_then, ← compare_natCast, ← compare_neg, ← compare_neg]
    rfl
  rcases a with ⟨_ | _⟩ | _ | _ | ⟨_ | _, m₁, e₁, h₁⟩ <;>
    rcases b with ⟨_ | _⟩ | _ | _ | ⟨_ | _, m₂, e₂, h₂⟩ <;>
    first
    | rfl
    | exact congrArg some (hpos m₁ m₂ e₁ e₂).symm
    | exact congrArg some (hneg m₁ m₂ e₁ e₂).symm

/-- `Number.isNaN`. -/
theorem isNaN_iff {x : Float} : x.isNaN = true ↔ rank x = none := by
  show x.toModel.unpack.isNaN = true ↔ unpackedRank x.toModel.unpack = none
  rcases x.toModel.unpack with ⟨_ | _⟩ | _ | _ | ⟨_ | _, m, e, h⟩ <;>
    first
    | exact iff_of_true rfl rfl
    | exact iff_of_false Bool.false_ne_true nofun

section Comparisons

variable {x y : Float}

/-- `x < y`. -/
theorem lt_iff : x.lt y = true ↔ ∃ r ∈ rank x, ∃ s ∈ rank y, r < s := by
  have hcompare : x.lt y = true ↔ (x.toModel.unpack.compare y.toModel.unpack == some .lt) = true :=
    decide_eq_true_iff
  rw [hcompare, compare_eq, beq_iff_eq]
  simp [Option.bind_eq_some_iff, compare_lt_iff_lt, rank]

/-- `x ≤ y`. -/
theorem le_iff : x.le y = true ↔ ∃ r ∈ rank x, ∃ s ∈ rank y, r ≤ s := by
  have hcompare : x.le y = true ↔
      (x.toModel.unpack.compare y.toModel.unpack).any Ordering.isLE = true :=
    decide_eq_true_iff
  rw [hcompare, compare_eq, rank, rank]
  cases unpackedRank x.toModel.unpack with
  | none => simp
  | some r =>
    cases unpackedRank y.toModel.unpack with
    | none => simp
    | some s => simp [Ordering.isLE_iff_ne_gt, compare_le_iff_le]

/-- `x == y`. -/
theorem beq_iff : (x == y) = true ↔ ∃ r ∈ rank x, ∃ s ∈ rank y, r = s := by
  have hcompare : (x == y) = (x.toModel.unpack.compare y.toModel.unpack == some .eq) := rfl
  rw [hcompare, compare_eq, beq_iff_eq]
  simp [Option.bind_eq_some_iff, compare_eq_iff_eq, rank]

end Comparisons

end Double
