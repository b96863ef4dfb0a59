import DesignLayout.Scalar
import Mathlib.Algebra.Order.Field.Rat
import Mathlib.Tactic.Linarith
import Mathlib.Tactic.Ring

/-! Geometry in exact fractions.

The fractions are an arithmetic in which nothing is rounded: half of a number is a half of it, and
the comparisons are those of the numbers. What only holds without rounding is proved of them. -/
namespace DesignLayout

instance : Scalar ℚ where
  zero := 0
  half x := x / 2
  ofCount n := n
  same x y := decide (x = y)
  less x y := decide (x < y)
  atMost x y := decide (x ≤ y)

namespace Scalar

@[simp] theorem zero_rat : (zero : ℚ) = 0 := rfl

@[simp] theorem half_rat (x : ℚ) : half x = x / 2 := rfl

@[simp] theorem ofCount_rat (n : Nat) : (ofCount n : ℚ) = n := rfl

@[simp] theorem same_rat (x y : ℚ) : same x y = decide (x = y) := rfl

@[simp] theorem less_rat (x y : ℚ) : less x y = decide (x < y) := rfl

@[simp] theorem atMost_rat (x y : ℚ) : atMost x y = decide (x ≤ y) := rfl

end Scalar
end DesignLayout
