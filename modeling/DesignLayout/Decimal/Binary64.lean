/-!
Doubles as exact numbers.

`Binary64.ofFloat` takes a double apart into a sign and `mantissa * 2 ^ exponent`;
`Binary64.nearest` goes back from any fraction to the double nearest to it, a tie going to the even
mantissa, a fraction beyond the largest double to infinity, and one below half of the smallest
positive double to zero.
-/
namespace DesignLayout.Decimal

inductive Binary64
  | nan
  | infinite (negative : Bool)
  | finite (negative : Bool) (mantissa : Nat) (exponent : Int)
  deriving DecidableEq, Repr

namespace Binary64

/-- The exponent of the smallest positive double. -/
def leastExponent : Int := -1074

/-- The mantissa from which on a double is normal. -/
def hiddenBit : Nat := 0x10000000000000

def signBit : Nat := 0x8000000000000000

def infinityBits : Nat := 2047 * hiddenBit

def ofBits (bits : Nat) : Binary64 :=
  let negative := bits / signBit % 2 == 1
  let field := bits / hiddenBit % 2048
  let fraction := bits % hiddenBit
  if field = 2047 then
    if fraction = 0 then infinite negative else nan
  else if field = 0 then finite negative fraction leastExponent
  else finite negative (fraction + hiddenBit) (field + leastExponent - 1)

def ofFloat (x : Float) : Binary64 :=
  ofBits x.toBits.toNat

/-- The quotient rounded to the nearest whole number, a tie to the even one. -/
def roundDiv (num den : Nat) : Nat :=
  let down := num / den
  let rest := 2 * (num % den)
  if rest < den || (rest == den && down % 2 == 0) then down else down + 1

/-- The bits of the double nearest to `num / den`, without the sign. The exponent field and the
mantissa are added, so that a mantissa rounded up to the next power carries into the field. -/
def nearestBits (num den : Nat) : Nat :=
  if num = 0 then 0
  else
    let guess : Int := (num.log2 : Int) - den.log2
    let top := if den <<< guess.toNat ≤ num <<< (-guess).toNat then guess else guess - 1
    let exponent := max (top - 52) leastExponent
    let mantissa := roundDiv (num <<< (-exponent).toNat) (den <<< exponent.toNat)
    min ((exponent - leastExponent).toNat * hiddenBit + mantissa) infinityBits

def nearest (negative : Bool) (num den : Nat) : Float :=
  let bits := nearestBits num den
  Float.ofBits (UInt64.ofNat (if negative then bits + signBit else bits))

end Binary64
end DesignLayout.Decimal
