import SampleTypes.Inference

/-!
# Declarations

A type is declared under a name. An object type has a line for every field, indented by its
depth, and a closing brace one step to the left of its fields; an array type is its element type
followed by brackets.

## Main definitions

* `Outline.format?`, `Descriptor.format` — the text of a type whose fields stand at a level
* `Outline.declare?`, `Descriptor.declare` — the declaration of a type
* `Sample.declare` — the declaration of the type of a sample
-/

namespace SampleTypes

namespace Declaration

/-- The name of a type that is given no other. -/
def defaultName : Text := Text.ofString "GeneratedType"

/-- One step of indentation. -/
def unit : Text := Text.ofString "  "

/-- The indentation of a level; there is none at levels below one. -/
def indent (level : Int) : Text := (List.replicate level.toNat unit).flatten

/-- The line of a field. -/
def fieldLine (level : Int) (name type : Text) : Text :=
  indent level ++ name ++ Text.ofString ": " ++ type ++ [ofChar ';']

/-- Lines between braces. -/
def braces (level : Int) (lines : List Text) : Text :=
  if lines = [] then Text.ofString "\x7b\x7d"
  else
    Text.ofString "\x7b\n" ++ Text.joinWith [ofChar '\n'] lines ++ ofChar '\n'
      :: (indent (level - 1) ++ [ofChar '\x7d'])

/-- The word for a primitive. A type of which only a null is known is unknown. -/
def word (tag : Tag) : Text := if tag = .null then Tag.unknown.text else tag.text

/-- A type declared under a name. -/
def declare (name type : Text) : Text :=
  Text.ofString "type " ++ name ++ Text.ofString " = " ++ type ++ [ofChar ';']

end Declaration

namespace Outline

variable {φ : Type}

open Declaration

mutual

/-- The text of a type whose fields stand at a level, or the first stray value. -/
def format? (level : Int) : Outline φ → Except φ Text
  | .primitive tag => .ok (word tag)
  | .array element => (format? level element).map fun t => t ++ Text.ofString "[]"
  | .object fields => (formatFields? level fields).map (braces level)
  | .stray value => .error value
termination_by structural o => o

/-- The lines of the fields. -/
def formatFields? (level : Int) : List (Text × Outline φ) → Except φ (List Text)
  | [] => .ok []
  | (name, o) :: rest => do
    let type ← format? (level + 1) o
    let lines ← formatFields? level rest
    return fieldLine level name type :: lines
termination_by structural fields => fields

end

/-- The declaration of a type, or the first stray value. -/
def declare? (o : Outline φ) (name : Text) : Except φ Text :=
  (format? 1 o).map (Declaration.declare name)

end Outline

namespace Descriptor

/-- The text of a type whose fields stand at a level. -/
def format (level : Int) (d : Descriptor) : Text := Outline.settled (Outline.format? level d)

/-- The declaration of a type. -/
def declare (d : Descriptor) (name : Text) : Text := Outline.settled (Outline.declare? d name)

end Descriptor

/-- The declaration of the type of a sample. -/
def Sample.declare (s : Sample) (name : Text) : Except Untyped Text :=
  (infer s).map fun d => d.declare name

end SampleTypes
