import SampleTypes.Text.Utf8

/-!
# Paths of files

A path is the names that lead to a file, from the working directory or from the root. Repeated
strokes and the name for the same directory do not count; the name for the directory above does,
because it matters whether the directory before it exists.

The system knows a path by its bytes. A byte that is part of no text stands in a path as one of the
surrogates kept for that; a text with other surrogates, or with the code point zero, names no file.

## Main definitions

* `PathFault`, `PathFault.of?` — why a text names no file
* `FilePath`, `FilePath.ofText` — paths, and the path that a text writes
* `FilePath.text` — how a path is written
* `FilePath.parent`, `FilePath.stem` — the path of the directory, and the name without its ending
-/

namespace SampleTypes

/-- The surrogates that stand for the bytes from `0x80` on. -/
def CodePoint.isEscapedByte (c : CodePoint) : Bool := 0xDC80 ≤ c.val && c.val ≤ 0xDCFF

/-- The number of bytes by which the system knows a text. -/
def Text.systemLength (t : Text) : Nat :=
  t.foldl (fun n c => n + if c.isEscapedByte then 1 else (Utf8.encodeOne c).length) 0

/-- Why a text names no file. -/
inductive PathFault where
  /-- It holds surrogates that stand for no byte. -/
  | unencodable (fault : Utf8.Unencodable)
  /-- It holds the code point zero, at which the system takes a path to end. -/
  | nullByte
  deriving DecidableEq, Repr

namespace PathFault

/-- The message of a fault. -/
def message : PathFault → Text
  | unencodable fault => fault.message
  | nullByte => Text.ofString "embedded null byte"

/-- The surrogates in a text that stand for no byte: the first of them, with those after it. -/
def unencodable? (t : Text) : Option Utf8.Unencodable :=
  (t.findIdx? fun c => c.isSurrogate && !c.isEscapedByte).map fun i =>
    ⟨i, (t.drop i).takeWhile CodePoint.isSurrogate⟩

/-- Why a text names no file, if it names none. -/
def of? (t : Text) : Option PathFault :=
  match unencodable? t with
  | some fault => some (unencodable fault)
  | none => if t.contains (ofChar '\x00') then some nullByte else none

end PathFault

/-- Where a path begins. -/
inductive PathStart where
  /-- At the working directory. -/
  | here
  /-- At the root. -/
  | root
  /-- At the root, written with two strokes, which are kept. -/
  | doubleRoot
  deriving DecidableEq, Repr

/-- The strokes in front of a path. -/
def PathStart.text : PathStart → Text
  | here => []
  | root => Text.ofString "/"
  | doubleRoot => Text.ofString "//"

/-- A path of a file or directory. -/
structure FilePath where
  start : PathStart := .here
  names : List Text
  deriving DecidableEq, Repr

namespace FilePath

/-- The name for the same directory. -/
def same : Text := Text.ofString "."

/-- The name for the directory above. -/
def above : Text := Text.ofString ".."

/-- The number of strokes in front of a text decides where its path begins: three or more count
as one. -/
def startOf (t : Text) : PathStart :=
  match (t.takeWhile (· == ofChar '/')).length with
  | 0 => .here
  | 2 => .doubleRoot
  | _ => .root

/-- The path that a text writes. -/
def ofText (t : Text) : FilePath where
  start := startOf t
  names := (t.split (ofChar '/')).filter fun name => name ≠ [] && name ≠ same

/-- How a path is written. -/
def text (p : FilePath) : Text :=
  if p.start = .here ∧ p.names = [] then same
  else p.start.text ++ Text.joinWith [ofChar '/'] p.names

/-- The path without its last name. -/
def parent (p : FilePath) : FilePath := { p with names := p.names.dropLast }

/-- The path of a name in a directory. -/
def child (p : FilePath) (name : Text) : FilePath := { p with names := p.names ++ [name] }

/-- The last name, without the last point in it and what follows, if anything stands before the
point and after it. -/
def stem (p : FilePath) : Text :=
  let name := p.names.getLast?.getD []
  -- The name is read from its end, where the last point comes first.
  let ending := name.reverse.takeWhile (· != ofChar '.')
  let before := (name.reverse.drop (ending.length + 1)).reverse
  if ending = [] ∨ before = [] then name else before

end FilePath

end SampleTypes
