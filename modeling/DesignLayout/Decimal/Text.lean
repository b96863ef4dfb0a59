import DesignLayout.Decimal.Shortest

/-!
Written forms of doubles.

A `Style` holds the decisions of a format; `Style.render` writes the shortest decimal in it. The
styles themselves stand with the outputs that use them.
-/
namespace DesignLayout.Decimal

structure Style where
  tie : Tie
  /-- The decimal exponents of the first digit that are written without an exponent. -/
  positional : Int → Bool
  /-- What follows a whole number that is written without an exponent. -/
  afterWhole : String
  infinity : String
  nan : String

/-- The digits of a positive figure without trailing zeros, and the exponent of the first one. -/
def Figure.significant (f : Figure) : List Char × Int :=
  let digits := Nat.toDigits 10 f.digits
  ((digits.reverse.dropWhile (· == '0')).reverse, f.exponent + digits.length - 1)

def zeros (n : Nat) : List Char := List.replicate n '0'

/-- Digits with the point where the exponent of the first digit puts it. -/
def positionalText (style : Style) (digits : List Char) (exponent : Int) : List Char :=
  if exponent < 0 then
    '0' :: '.' :: zeros (-exponent - 1).toNat ++ digits
  else
    let whole := exponent.toNat + 1
    if digits.length ≤ whole then
      digits ++ zeros (whole - digits.length) ++ style.afterWhole.toList
    else
      digits.take whole ++ '.' :: digits.drop whole

/-- One digit before the point, and the exponent with its sign. -/
def scientificText (digits : List Char) (exponent : Int) : List Char :=
  let fraction := match digits.drop 1 with
    | [] => []
    | rest => '.' :: rest
  let sign := if exponent < 0 then '-' else '+'
  digits.take 1 ++ fraction ++ 'e' :: sign :: Nat.toDigits 10 exponent.natAbs

def Style.magnitude (style : Style) (mantissa : Nat) (exponent : Int) : List Char :=
  if mantissa = 0 then '0' :: style.afterWhole.toList
  else
    let (digits, first) := (shortest style.tie mantissa exponent).significant
    if style.positional first then positionalText style digits first
    else scientificText digits first

def Style.signed (negative : Bool) (text : List Char) : String :=
  String.ofList (if negative then '-' :: text else text)

def Style.render (style : Style) (x : Float) : String :=
  match Binary64.ofFloat x with
  | .nan => style.nan
  | .infinite negative => Style.signed negative style.infinity.toList
  | .finite negative mantissa exponent =>
    Style.signed negative (style.magnitude mantissa exponent)

end DesignLayout.Decimal
