import DesignLayout.Text.Unprintable

/-!
The quoted form of a text inside messages.

A quoted text stands between double quotes. The five characters tab, return, newline, NUL and
backslash, and the quote itself, have a two-character escape; a character without a shape of its
own is written by its number, as in `\u{200b}`, and so are combining marks and fillers; every other
character stands for itself.
-/
namespace DesignLayout.Text

/-- A number in lower-case hexadecimal digits, without leading zeros. -/
def hexDigits (n : Nat) : List Char :=
  Nat.toDigits 16 n

def quotedChar (c : Char) : List Char :=
  match c with
  | '\t' => ['\\', 't']
  | '\r' => ['\\', 'r']
  | '\n' => ['\\', 'n']
  | '\x00' => ['\\', '0']
  | '\\' => ['\\', '\\']
  | '"' => ['\\', '"']
  | c =>
    if isInvisible c || isCombining c || isFiller c then
      ['\\', 'u', '\x7b'] ++ hexDigits c.toNat ++ ['\x7d']
    else [c]

def quoted (s : String) : String :=
  String.ofList ('"' :: s.toList.flatMap quotedChar ++ ['"'])

end DesignLayout.Text
