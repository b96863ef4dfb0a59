import DesignLayout.Decimal.Text
import DesignLayout.Json.Basic

/-!
Writing JSON, on one line or with an indent of two spaces for each level.

A double is written with the fewest digits that read back: without an exponent when its first digit
stands for `10 ^ -5` up to `10 ^ 15`, then always with a point, else as in `1e+16` and `1e-7`.
Infinity and NaN have no JSON form and are written `null`. In texts only quotes, backslashes and
controls below U+0020 are escaped. An empty array or object takes no line of its own.
-/
namespace DesignLayout.Json

def realStyle : Decimal.Style where
  tie := .even
  positional e := -5 ≤ e && e ≤ 15
  afterWhole := ".0"
  infinity := "null"
  nan := "null"

def realText (x : Float) : String :=
  if x.isFinite then realStyle.render x else "null"

def escapedChar (c : Char) : List Char :=
  match c with
  | '"' => ['\\', '"']
  | '\\' => ['\\', '\\']
  | '\x08' => ['\\', 'b']
  | '\x0c' => ['\\', 'f']
  | '\n' => ['\\', 'n']
  | '\r' => ['\\', 'r']
  | '\t' => ['\\', 't']
  | c =>
    if c.toNat < 0x20 then
      ['\\', 'u', '0', '0', (if c.toNat < 0x10 then '0' else '1'), Nat.digitChar (c.toNat % 16)]
    else [c]

def textForm (s : String) : String :=
  String.ofList ('"' :: s.toList.flatMap escapedChar ++ ['"'])

mutual

/-- The value on one line. -/
def compact : Json → String
  | null => "null"
  | bool value => if value then "true" else "false"
  | whole value => toString value
  | real value => realText value
  | text value => textForm value
  | array items => "[" ++ compactItems items ++ "]"
  | object fields => "\x7b" ++ compactFields fields ++ "\x7d"

def compactItems : List Json → String
  | [] => ""
  | [item] => compact item
  | item :: rest => compact item ++ "," ++ compactItems rest

def compactFields : List (String × Json) → String
  | [] => ""
  | [(name, value)] => textForm name ++ ":" ++ compact value
  | (name, value) :: rest => textForm name ++ ":" ++ compact value ++ "," ++ compactFields rest

end

def newLine (level : Nat) : String :=
  String.ofList ('\n' :: List.replicate (2 * level) ' ')

mutual

/-- The value on several lines, `level` levels inside another one. -/
def prettyAt (level : Nat) : Json → String
  | array (item :: rest) =>
    "[" ++ prettyItems (level + 1) (item :: rest) ++ newLine level ++ "]"
  | object (field :: rest) =>
    "\x7b" ++ prettyFields (level + 1) (field :: rest) ++ newLine level ++ "\x7d"
  | array [] => "[]"
  | object [] => "\x7b\x7d"
  | null => "null"
  | bool value => if value then "true" else "false"
  | whole value => toString value
  | real value => realText value
  | text value => textForm value

def prettyItems (level : Nat) : List Json → String
  | [] => ""
  | [item] => newLine level ++ prettyAt level item
  | item :: rest => newLine level ++ prettyAt level item ++ "," ++ prettyItems level rest

def prettyFields (level : Nat) : List (String × Json) → String
  | [] => ""
  | [(name, value)] => newLine level ++ textForm name ++ ": " ++ prettyAt level value
  | (name, value) :: rest =>
    newLine level ++ textForm name ++ ": " ++ prettyAt level value ++ "," ++
      prettyFields level rest

end

/-- The value on several lines. -/
def pretty (v : Json) : String :=
  prettyAt 0 v

end DesignLayout.Json
