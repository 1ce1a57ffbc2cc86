import SampleTypes.Text.Printable
import SampleTypes.Text.Utf8

/-!
# Quoted text

Messages quote text between apostrophes, or between quotation marks when the text holds an
apostrophe and no quotation mark. The quote, the backslash and all that is not printable are
escaped, so that a message shows what the text holds.

## Main definitions

* `Text.quoted` — a text in quotes
-/

namespace SampleTypes.Text

/-- A code point within quotes. -/
def quotedOne (quote c : CodePoint) : Text :=
  if c = quote ∨ c = ofChar '\\' then [ofChar '\\', c]
  else if c = ofChar '\n' then ofString "\\n"
  else if c = ofChar '\r' then ofString "\\r"
  else if c = ofChar '\t' then ofString "\\t"
  else if c.isPrintable then [c]
  else if c.val ≤ 0xFF then ofString "\\x" ++ Utf8.hex 2 c.val
  else if c.val ≤ 0xFFFF then ofString "\\u" ++ Utf8.hex 4 c.val
  else ofString "\\U" ++ Utf8.hex 8 c.val

/-- The quote that a text takes. -/
def quoteOf (t : Text) : CodePoint :=
  if t.contains (ofChar '\x27') && !t.contains (ofChar '\x22') then ofChar '\x22'
  else ofChar '\x27'

/-- A text in quotes. -/
def quoted (t : Text) : Text :=
  let quote := t.quoteOf
  quote :: (t.flatMap (quotedOne quote) ++ [quote])

end SampleTypes.Text
