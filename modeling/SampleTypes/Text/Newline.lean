import SampleTypes.Text.Utf8

/-!
# Line ends

Text read from a file or from standard input has one kind of line end: a carriage return, alone
or before a line feed, is read as a line feed.

## Main definitions

* `Text.unifyNewlines` — a text with one kind of line end
* `Text.ofDocument` — the text of the bytes of a document
-/

namespace SampleTypes.Text

/-- Every line end becomes a line feed. `afterReturn` says that a carriage return was just
read, whose line feed is then its own. -/
def unifyNewlinesFrom (afterReturn : Bool) : Text → Text
  | [] => []
  | c :: rest =>
    if c = ofChar '\r' then ofChar '\n' :: unifyNewlinesFrom true rest
    else if c = ofChar '\n' ∧ afterReturn then unifyNewlinesFrom false rest
    else c :: unifyNewlinesFrom false rest

/-- Every line end becomes a line feed. -/
def unifyNewlines (t : Text) : Text := unifyNewlinesFrom false t

/-- The text of the bytes of a document. -/
def ofDocument (bytes : List UInt8) : Except Utf8.Malformed Text :=
  (Utf8.decode bytes).map unifyNewlines

end SampleTypes.Text
