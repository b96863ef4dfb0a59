import DesignLayout.Decimal.Numeral
import DesignLayout.Json.Source

/-!
JSON tokens.

`Token.scan` reads a text character by character. A word is one of three names or a numeral in the
narrow JSON form, and it goes on as long as it can be the beginning of one. A whole literal that
fits 64 bits is a whole number, except `-0`, which is the negative zero; any other number is a
double. Inside quotes the ten escapes are resolved, a pair of surrogates to one
character. A number too large for a double and a text with a lone surrogate are tokens without a
value. At the first character that fits nowhere the tokens end in a `bad` one.
-/
namespace DesignLayout.Json

inductive Token
  | openObject
  | closeObject
  | openArray
  | closeArray
  | comma
  | colon
  | text (value : Option String)
  /-- A name or a number. -/
  | scalar (value : Source)
  | bad

namespace Token

/-- The narrower shape of numerals: no plus sign, no needless zero, digits on both sides of the
point. -/
def isStrict (n : Decimal.Numeral) : Bool :=
  n.sign != .plus && (n.whole == ['0'] || n.whole.head?.any (· != '0')) &&
    n.fraction.all (!·.isEmpty)

def fitsInteger (n : Int) : Bool :=
  -0x8000000000000000 ≤ n && n < 0x10000000000000000

def ofNumeral (n : Decimal.Numeral) : Source :=
  let size : Int := Decimal.digitsValue n.whole
  let integer := if n.isNegative then -size else size
  if n.isWhole && fitsInteger integer && !(n.isNegative && size == 0) then .whole integer
  else if n.value.isInf then .unreadable
  else .real n.value

def names : List (List Char × Source) :=
  [("null".toList, .null), ("true".toList, .bool true), ("false".toList, .bool false)]

def ofWord (word : List Char) : Token :=
  match names.lookup word with
  | some v => scalar v
  | none => match Decimal.Numeral.scan? word with
    | some n => if isStrict n then scalar (ofNumeral n) else bad
    | none => bad

def exponentGoesOn : List Char → Bool
  | [] => true
  | c :: cs => (c == 'e' || c == 'E') && (Decimal.Sign.split cs).2.all Char.isDigit

/-- Whether more can follow a sign or digit and these characters. -/
def numeralGoesOn (cs : List Char) : Bool :=
  match cs.dropWhile Char.isDigit with
  | '.' :: cs => exponentGoesOn (cs.dropWhile Char.isDigit)
  | cs => exponentGoesOn cs

/-- Whether a name or numeral, good or bad, can begin like this. -/
def beginsWord : List Char → Bool
  | [] => true
  | c :: cs =>
    (names.any fun (name, _) => (c :: cs).isPrefixOf name) ||
      ((c == '-' || c.isDigit) && numeralGoesOn cs)

def isSpace (c : Char) : Bool :=
  c == ' ' || c == '\t' || c == '\n' || c == '\r'

def ofPunctuation : Char → Token
  | '\x7b' => openObject
  | '\x7d' => closeObject
  | '[' => openArray
  | ']' => closeArray
  | ',' => comma
  | ':' => colon
  | _ => bad

def ofEscape? : Char → Option Char
  | '"' => some '"'
  | '\\' => some '\\'
  | '/' => some '/'
  | 'b' => some '\x08'
  | 'f' => some '\x0c'
  | 'n' => some '\n'
  | 'r' => some '\r'
  | 't' => some '\t'
  | _ => none

def hexValue? (c : Char) : Option Nat :=
  if c.isDigit then some (c.toNat - '0'.toNat)
  else if 'a' ≤ c ∧ c ≤ 'f' then some (c.toNat - 'a'.toNat + 10)
  else if 'A' ≤ c ∧ c ≤ 'F' then some (c.toNat - 'A'.toNat + 10)
  else none

/-! ### Quoted texts -/

/-- A part of a quoted text: a character, or a code unit that was written by its number. -/
inductive Piece
  | char (c : Char)
  | unit (n : Nat)

def isLead (n : Nat) : Bool := 0xD800 ≤ n && n < 0xDC00

def isTrail (n : Nat) : Bool := 0xDC00 ≤ n && n < 0xE000

/-- The character of a pair of surrogates. -/
def ofPair (lead trail : Nat) : Char :=
  Char.ofNat (0x10000 + (lead - 0xD800) * 0x400 + (trail - 0xDC00))

/-- The characters of the pieces, latest first, put before others; `none` when a surrogate is
alone. -/
def joinPieces : List Piece → List Char → Option (List Char)
  | [], cs => some cs
  | .char c :: rest, cs => joinPieces rest (c :: cs)
  | .unit n :: .unit m :: rest, cs =>
    if isTrail n then if isLead m then joinPieces rest (ofPair m n :: cs) else none
    else if isLead n then none
    else joinPieces (.unit m :: rest) (Char.ofNat n :: cs)
  | .unit n :: rest, cs =>
    if isTrail n || isLead n then none else joinPieces rest (Char.ofNat n :: cs)

/-! ### The scan -/

/-- Where the scan stands. What was already read is kept latest first. -/
inductive Place
  | between
  | word (seen : List Char)
  | quoted (seen : List Piece)
  | escape (seen : List Piece)
  /-- Inside the four digits of a code unit. -/
  | code (seen : List Piece) (digits value : Nat)
  | stopped

/-- The tokens found, latest first, and the place of the scan. -/
structure Scan where
  found : List Token
  place : Place

namespace Scan

/-- Takes down a token; after a bad one there are no others. -/
def push (s : Scan) : Token → Scan
  | bad => ⟨bad :: s.found, .stopped⟩
  | t => ⟨t :: s.found, .between⟩

def start (s : Scan) (c : Char) : Scan :=
  if isSpace c then { s with place := .between }
  else if c = '"' then { s with place := .quoted [] }
  else if beginsWord [c] then { s with place := .word [c] }
  else s.push (ofPunctuation c)

def step (s : Scan) (c : Char) : Scan :=
  match s.place with
  | .between => s.start c
  | .word seen =>
    if beginsWord (c :: seen).reverse then { s with place := .word (c :: seen) }
    else match ofWord seen.reverse with
      | bad => s.push bad
      | t => (s.push t).start c
  | .quoted seen =>
    if c = '"' then s.push (.text ((joinPieces seen []).map String.ofList))
    else if c = '\\' then { s with place := .escape seen }
    else if c.toNat < 0x20 then s.push bad
    else { s with place := .quoted (.char c :: seen) }
  | .escape seen =>
    if c = 'u' then { s with place := .code seen 0 0 }
    else match ofEscape? c with
      | some d => { s with place := .quoted (.char d :: seen) }
      | none => s.push bad
  | .code seen digits value =>
    match hexValue? c with
    | none => s.push bad
    | some d =>
      let n := 16 * value + d
      if digits = 3 then { s with place := .quoted (.unit n :: seen) }
      else { s with place := .code seen (digits + 1) n }
  | .stopped => s

/-- All tokens, when the text ends. -/
def tokens (s : Scan) : List Token :=
  match s.place with
  | .between | .stopped => s.found.reverse
  | .word seen => (ofWord seen.reverse :: s.found).reverse
  | _ => (bad :: s.found).reverse

end Scan

def scan (cs : List Char) : List Token :=
  (cs.foldl Scan.step ⟨[], .between⟩).tokens

end Token
end DesignLayout.Json
