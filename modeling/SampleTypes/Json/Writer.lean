import SampleTypes.Json.Basic
import SampleTypes.Number.Layout
import SampleTypes.Text.Utf8

/-!
# Writing JSON

Two forms. The compact one has no blanks and keeps every code point that need not be escaped; it
is what digests are taken of. The indented one is for people: two blanks a level, a blank after
each colon, and only ASCII.

## Main definitions

* `Json.string` — a text between quotation marks, escaped
* `Json.compact` — the compact form
* `Json.indented` — the indented form
-/

namespace SampleTypes.Json

/-- Numbers in JSON: as words, with the names that the format gives to those without digits. -/
def numbers : Layout :=
  { Layout.word with nan := Text.ofString "NaN", infinity := Text.ofString "Infinity" }

/-- The escape of four hexadecimal digits. -/
def unitEscape (n : Nat) : Text := Text.ofString "\\u" ++ Utf8.hex 4 n

/-- The escape of any code point: above `U+FFFF` it is that of a surrogate pair. -/
def escape (c : CodePoint) : Text :=
  if c.val < 0x10000 then unitEscape c.val
  else
    -- Ten bits go into each surrogate.
    let n := c.val - 0x10000
    unitEscape (0xD800 + n / 0x400) ++ unitEscape (0xDC00 + n % 0x400)

/-- The escapes of one letter. -/
def shortEscape? (c : CodePoint) : Option Char :=
  if c = ofChar '\x22' then some '\x22'
  else if c = ofChar '\\' then some '\\'
  else if c = ofChar '\n' then some 'n'
  else if c = ofChar '\r' then some 'r'
  else if c = ofChar '\t' then some 't'
  else if c = ofChar '\x08' then some 'b'
  else if c = ofChar '\x0c' then some 'f'
  else none

/-- A code point within a string. With `ascii`, all that is not printable ASCII is escaped. -/
def stringOne (ascii : Bool) (c : CodePoint) : Text :=
  match shortEscape? c with
  | some letter => [ofChar '\\', ofChar letter]
  | none => if c.isControl || (ascii && 0x7F ≤ c.val) then escape c else [c]

/-- A text between quotation marks. -/
def string (ascii : Bool) (t : Text) : Text :=
  ofChar '\x22' :: (t.flatMap (stringOne ascii) ++ [ofChar '\x22'])

/-- The text of a truth value. -/
def truth (b : Bool) : Text := if b then Text.ofString "true" else Text.ofString "false"

mutual

/-- The compact form. -/
def compact : Json → Text
  | .null => Text.ofString "null"
  | .bool b => truth b
  | .int n => Text.ofInt n
  | .float x => numbers.write x
  | .text t => string false t
  | .array items =>
    ofChar '[' :: (Text.joinWith [ofChar ','] (compactItems items) ++ [ofChar ']'])
  | .object members =>
    ofChar '\x7b' :: (Text.joinWith [ofChar ','] (compactMembers members) ++ [ofChar '\x7d'])
termination_by structural j => j

/-- The compact forms of the items. -/
def compactItems : List Json → List Text
  | [] => []
  | j :: rest => compact j :: compactItems rest
termination_by structural js => js

/-- The compact forms of the members. -/
def compactMembers : List (Text × Json) → List Text
  | [] => []
  | (name, j) :: rest => (string false name ++ ofChar ':' :: compact j) :: compactMembers rest
termination_by structural ms => ms

end

/-- A line end and the blanks of a level. -/
def newLine (level : Nat) : Text := ofChar '\n' :: List.replicate (2 * level) (ofChar ' ')

/-- Parts between brackets, each on a line of its own one level deeper. No parts stay on the
line. -/
def block (level : Nat) (opening closing : Char) (parts : List Text) : Text :=
  if parts = [] then [ofChar opening, ofChar closing]
  else
    ofChar opening :: (newLine (level + 1)
      ++ Text.joinWith (ofChar ',' :: newLine (level + 1)) parts
      ++ newLine level ++ [ofChar closing])

mutual

/-- The indented form of a value that stands at a level. -/
def indentedAt (level : Nat) : Json → Text
  | .null => Text.ofString "null"
  | .bool b => truth b
  | .int n => Text.ofInt n
  | .float x => numbers.write x
  | .text t => string true t
  | .array items => block level '[' ']' (indentedItems (level + 1) items)
  | .object members => block level '\x7b' '\x7d' (indentedMembers (level + 1) members)
termination_by structural j => j

/-- The indented forms of the items. -/
def indentedItems (level : Nat) : List Json → List Text
  | [] => []
  | j :: rest => indentedAt level j :: indentedItems level rest
termination_by structural js => js

/-- The indented forms of the members. -/
def indentedMembers (level : Nat) : List (Text × Json) → List Text
  | [] => []
  | (name, j) :: rest =>
    (string true name ++ Text.ofString ": " ++ indentedAt level j) :: indentedMembers level rest
termination_by structural ms => ms

end

/-- The indented form. -/
def indented (j : Json) : Text := indentedAt 0 j

end SampleTypes.Json
