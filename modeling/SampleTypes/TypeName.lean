import SampleTypes.Declaration

/-!
# Names of types

A type is named after the file that the sample came from: the runs of ASCII letters and digits of
its stem, each with a capital, one after another. A name does not begin with a digit; one that
would begins with a fallback instead.

## Main definitions

* `TypeName.camelize` — the runs of letters and digits, capitalised and joined
* `TypeName.normalize` — the characters of an identifier, or a fallback
* `TypeName.suggest` — the name for a stem
-/

namespace SampleTypes.TypeName

/-- Letters and digits; the first of each run is a capital. `atStart` says that a run would
begin here. -/
def camelizeFrom (atStart : Bool) : Text → Text
  | [] => []
  | c :: rest =>
    if c.isAlphanumeric then (if atStart then c.toUpper else c) :: camelizeFrom false rest
    else camelizeFrom true rest

/-- The runs of letters and digits, capitalised and joined. -/
def camelize (t : Text) : Text := camelizeFrom true t

/-- The code points of identifiers. -/
def isIdentifier (c : CodePoint) : Bool := c.isAlphanumeric || c == ofChar '_'

/-- The identifier in a text: without a code point of identifiers it is the fallback, and before
a digit comes the fallback. -/
def normalize (t fallback : Text) : Text :=
  match t.filter isIdentifier with
  | [] => fallback
  | c :: rest => if c.isDigit then fallback ++ c :: rest else c :: rest

/-- The name of a type for the stem of a file name. -/
def suggest (stem : Text) (fallback : Text := Declaration.defaultName) : Text :=
  normalize (camelize stem) fallback

end SampleTypes.TypeName
