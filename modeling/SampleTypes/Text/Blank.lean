import SampleTypes.Text.Basic

/-!
# Blank space

The code points that count as blank around a word: the property `White_Space`, and the four
separators from `U+001C` to `U+001F`.
-/

namespace SampleTypes

/-- White space, and the four information separators. -/
def CodePoint.isBlank (c : CodePoint) : Bool :=
  let n := c.val
  (0x09 ≤ n && n ≤ 0x0D) || (0x1C ≤ n && n ≤ 0x20) || n == 0x85 || n == 0xA0 || n == 0x1680
    || (0x2000 ≤ n && n ≤ 0x200A) || n == 0x2028 || n == 0x2029 || n == 0x202F || n == 0x205F
    || n == 0x3000

namespace Text

/-- The text without the blanks at its end. -/
def stripEnd (t : Text) : Text := (t.reverse.dropWhile CodePoint.isBlank).reverse

/-- The text without the blanks at its two ends. -/
def strip (t : Text) : Text := stripEnd (t.dropWhile CodePoint.isBlank)

end Text

end SampleTypes
