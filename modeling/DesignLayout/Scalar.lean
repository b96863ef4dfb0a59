/-!
The arithmetic that geometry is computed in.

`Scalar` asks for operations and for no law, so whatever is proved of all scalars holds of
doubles with their rounding as it holds of exact fractions. Comparisons are those of the numbers:
on doubles a NaN differs from itself, and the two zeros are the same.
-/
namespace DesignLayout

class Scalar (α : Type) extends Add α, Sub α, Mul α where
  zero : α
  half : α → α
  ofCount : Nat → α
  same : α → α → Bool
  less : α → α → Bool
  atMost : α → α → Bool

instance : Scalar Float where
  zero := 0.0
  half x := x / 2.0
  ofCount n := Float.ofNat n
  same x y := x == y
  less x y := decide (x < y)
  atMost x y := decide (x ≤ y)

end DesignLayout
