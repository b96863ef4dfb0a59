import DesignLayout.Decimal.Binary64

/-!
Numerals: decimal numbers as they are written.

A numeral has a sign, digits, perhaps a point with digits after it, and perhaps an exponent.
`Numeral.scan?` takes every text of that shape with at least one digit; formats that allow less ask
more of the numeral they get. `Numeral.value` is the double nearest to the number, infinite when the
number is too large.
-/
namespace DesignLayout.Decimal

inductive Sign
  | none
  | plus
  | minus
  deriving DecidableEq, Repr

structure Numeral where
  sign : Sign
  whole : List Char
  fraction : Option (List Char)
  exponent : Option (Sign × List Char)
  deriving DecidableEq, Repr

def Sign.split : List Char → Sign × List Char
  | '+' :: cs => (.plus, cs)
  | '-' :: cs => (.minus, cs)
  | cs => (.none, cs)

/-- The number that a run of digits stands for. -/
def digitsValue (digits : List Char) : Nat :=
  digits.foldl (fun n c => 10 * n + (c.toNat - '0'.toNat)) 0

namespace Numeral

def scanExponent? : List Char → Option (Option (Sign × List Char))
  | [] => some none
  | c :: cs =>
    if c = 'e' ∨ c = 'E' then
      let (sign, digits) := Sign.split cs
      if digits ≠ [] ∧ digits.all Char.isDigit then some (some (sign, digits)) else none
    else none

def scan? (cs : List Char) : Option Numeral :=
  let (sign, cs) := Sign.split cs
  let whole := cs.takeWhile Char.isDigit
  let (fraction, rest) := match cs.dropWhile Char.isDigit with
    | '.' :: cs => (some (cs.takeWhile Char.isDigit), cs.dropWhile Char.isDigit)
    | cs => (none, cs)
  if whole = [] ∧ fraction.getD [] = [] then none
  else (scanExponent? rest).map fun exponent => { sign, whole, fraction, exponent }

def isNegative (n : Numeral) : Bool :=
  n.sign == .minus

/-- A numeral without point and exponent. -/
def isWhole (n : Numeral) : Bool :=
  n.fraction.isNone && n.exponent.isNone

def digits (n : Numeral) : List Char :=
  n.whole ++ n.fraction.getD []

/-- The power of ten that the digits, read as one whole number, are to be multiplied with. -/
def power (n : Numeral) : Int :=
  let written : Int := match n.exponent with
    | none => 0
    | some (.minus, digits) => -(digitsValue digits : Int)
    | some (_, digits) => digitsValue digits
  written - (n.fraction.getD []).length

/-- Powers that put the number beyond all doubles are cut off before they are computed. -/
def value (n : Numeral) : Float :=
  let mantissa := digitsValue n.digits
  let size : Int := n.power + n.digits.length
  if mantissa = 0 ∨ size < -400 then Binary64.nearest n.isNegative 0 1
  else if 400 < n.power then Binary64.nearest n.isNegative (Nat.pow 10 400) 1
  else
    Binary64.nearest n.isNegative (mantissa * Nat.pow 10 n.power.toNat)
      (Nat.pow 10 (-n.power).toNat)

end Numeral
end DesignLayout.Decimal
