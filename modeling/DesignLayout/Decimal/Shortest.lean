import DesignLayout.Decimal.Binary64

/-!
The shortest decimal of a double.

A positive double `m * 2 ^ q` is the nearest one to every real of an interval around it; the ends
belong to it when `m` is even. Among the decimals of that interval `shortest` takes one with the
fewest digits and of those the one nearest to the double, so the text reads back and no shorter one
does. The search goes through the grids of one digit, two digits and so on: if a grid has a point
in the interval, then one of the two neighbours of the double on that grid is in it.
-/
namespace DesignLayout.Decimal

/-- Which of two equally near neighbours on a grid is taken. -/
inductive Tie
  | even
  | up
  deriving DecidableEq, Repr

/-- The decimal `digits * 10 ^ exponent`. -/
structure Figure where
  digits : Nat
  exponent : Int
  deriving DecidableEq, Repr

/-- A double between its neighbours, as fractions over one denominator: it stands for every real
from `low` to `high`, the ends included when `closed`. -/
structure Rounding where
  low : Nat
  value : Nat
  high : Nat
  den : Nat
  closed : Bool

/-- Quarters of the last place make the halfway points whole; below a power of two the doubles lie
twice as close. -/
def Rounding.of (mantissa : Nat) (exponent : Int) : Rounding :=
  let unit := 1 <<< (exponent - 2).toNat
  let below :=
    if mantissa = Binary64.hiddenBit ∧ Binary64.leastExponent < exponent then 1 else 2
  { low := (4 * mantissa - below) * unit
    value := 4 * mantissa * unit
    high := (4 * mantissa + 2) * unit
    den := 1 <<< (2 - exponent).toNat
    closed := mantissa % 2 == 0 }

/-- The same reals counted in units of `10 ^ k`. -/
def Rounding.inUnits (r : Rounding) (k : Int) : Rounding :=
  let factor := Nat.pow 10 (-k).toNat
  { r with
    low := r.low * factor
    value := r.value * factor
    high := r.high * factor
    den := r.den * Nat.pow 10 k.toNat }

def Rounding.holds (r : Rounding) (n : Nat) : Bool :=
  if r.closed then r.low ≤ n * r.den && n * r.den ≤ r.high
  else r.low < n * r.den && n * r.den < r.high

/-- The point of the grid of whole numbers that stands for the value, if there is one. -/
def Rounding.pick? (r : Rounding) (tie : Tie) : Option Nat :=
  let down := r.value / r.den
  let up := down + 1
  match r.holds down, r.holds up with
  | false, false => none
  | true, false => some down
  | false, true => some up
  | true, true =>
    let twice := 2 * r.value
    let middle := (down + up) * r.den
    if twice < middle then some down
    else if middle < twice then some up
    else match tie with
      | .up => some up
      | .even => some (if down % 2 = 0 then down else up)

/-- The decimal exponent of the first digit of a positive value. -/
def Rounding.magnitude (r : Rounding) : Int :=
  let atLeast (k : Int) : Bool :=
    r.den * Nat.pow 10 k.toNat ≤ r.value * Nat.pow 10 (-k).toNat
  let guess := ((r.value.log2 : Int) - r.den.log2) * 30103 / 100000
  if atLeast (guess + 1) then guess + 1
  else if atLeast guess then guess
  else guess - 1

/-- Searches the grids of `10 ^ k`, `10 ^ (k - 1)` and so on. -/
def Rounding.search (r : Rounding) (tie : Tie) : Nat → Int → Figure
  | 0, k => ⟨r.value / r.den, k⟩
  | steps + 1, k =>
    match (r.inUnits k).pick? tie with
    | some n => ⟨n, k⟩
    | none => r.search tie steps (k - 1)

/-- Seventeen digits tell any two doubles apart. -/
def shortest (tie : Tie) (mantissa : Nat) (exponent : Int) : Figure :=
  let r := Rounding.of mantissa exponent
  r.search tie 17 r.magnitude

end DesignLayout.Decimal
