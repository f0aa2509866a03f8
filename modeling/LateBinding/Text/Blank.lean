/-!
**White space and how a text is trimmed of it.**

The set is the Unicode property `White_Space`: 25 code points. The zero-width space and the
byte-order mark are not among them.

Main definitions:

* `LateBinding.Text.isBlank` — membership in `White_Space`;
* `LateBinding.Text.trimBlank` — a list of characters without the blanks at its two ends.
-/

set_option autoImplicit false

namespace LateBinding.Text

/-- The Unicode property `White_Space`. -/
def isBlank (c : Char) : Bool :=
  let n := c.toNat
  (9 ≤ n && n ≤ 13) || n == 0x20 || n == 0x85 || n == 0xA0 || n == 0x1680 ||
    (0x2000 ≤ n && n ≤ 0x200A) || n == 0x2028 || n == 0x2029 || n == 0x202F || n == 0x205F ||
    n == 0x3000

/-- The text between the first and the last character that is not blank. -/
def trimBlank (s : List Char) : List Char :=
  ((s.dropWhile isBlank).reverse.dropWhile isBlank).reverse

end LateBinding.Text
