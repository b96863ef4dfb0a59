/-!
Blank characters and trimming.

A character is blank when it has the `White_Space` property: the control blanks, the spaces, the
line and paragraph separators. The zero-width characters U+200B, U+FEFF and U+180E are not blank.
-/
namespace DesignLayout.Text

def isBlank (c : Char) : Bool :=
  let n := c.toNat
  (0x09 ≤ n && n ≤ 0x0D) || n == 0x20 || n == 0x85 || n == 0xA0 || n == 0x1680 ||
    (0x2000 ≤ n && n ≤ 0x200A) || n == 0x2028 || n == 0x2029 || n == 0x202F || n == 0x205F ||
    n == 0x3000

/-- The text without the blanks at its two ends. -/
def trimmed (cs : List Char) : List Char :=
  ((cs.dropWhile isBlank).reverse.dropWhile isBlank).reverse

end DesignLayout.Text
