import SampleTypes.Descriptor.Basic
import SampleTypes.Refusal

/-!
# Descriptors as JSON

A primitive is written as its word, an array type as an array of one item, and an object type as
an object. Reading takes any sample of that form: any text with the word of a primitive, any
sequence of one item, and any mapping whose keys are texts.

## Main definitions

* `Outline.toJson?`, `Descriptor.toJson` — writing
* `Descriptor.ofSample` — reading
* `FormatError` — why a sample is no descriptor, with its message
-/

namespace SampleTypes

namespace Outline

variable {φ : Type}

mutual

/-- The JSON form, or the first stray value. A name that is repeated keeps its first place and
its last type. -/
def toJson? : Outline φ → Except φ Json
  | .primitive tag => .ok (.text tag.text)
  | .array element => (toJson? element).map fun j => .array [j]
  | .object fields => (fieldsToJson? fields).map fun members => .object (Entries.ofPairs members)
  | .stray value => .error value
termination_by structural o => o

/-- The JSON forms of the fields. -/
def fieldsToJson? : List (Text × Outline φ) → Except φ (List (Text × Json))
  | [] => .ok []
  | (name, o) :: rest => do
    let j ← toJson? o
    let members ← fieldsToJson? rest
    return (name, j) :: members
termination_by structural fields => fields

end

/-- What a purpose cannot do with a stray sample. -/
def refusing {α : Type} (purpose : Purpose) (result : Except Sample α) : Except Refusal α :=
  result.mapError fun s => .stray purpose s.typeName

end Outline

/-- The JSON form of a descriptor. -/
def Descriptor.toJson (d : Descriptor) : Json := Outline.settled (Outline.toJson? d)

/-- Why a sample is no descriptor. -/
inductive FormatError where
  /-- A text that is no word of a primitive, quoted. -/
  | unknownTag (quoted : Text)
  /-- A list with the wrong number of items. -/
  | itemCount (count : Nat)
  /-- A key that is no text, by its type. -/
  | key (typeName : Text)
  /-- A value of a type that writes no descriptor. -/
  | value (typeName : Text)
  deriving DecidableEq, Repr

/-- The text of a fault. -/
def FormatError.message : FormatError → Text
  | .unknownTag quoted => Text.ofString "Unknown primitive tag: " ++ quoted
  | .itemCount n =>
    Text.ofString "Array descriptor must wrap exactly one element, got " ++ Text.ofNat n
  | .key t => Text.ofString "Object descriptor keys must be strings, got " ++ t
  | .value t => Text.ofString "Not a type descriptor: " ++ t

namespace Descriptor

mutual

/-- The descriptor that a sample writes, or the first fault. The key of an entry is looked at
before its value. -/
def ofSample : Sample → Except FormatError Descriptor
  | .text n t =>
    match Tag.ofText? t with
    | some tag => .ok (.primitive tag)
    | none => .error (.unknownTag (Sample.text n t).quoted)
  -- Any sequence may hold one item, but only a list is told that it holds the wrong number.
  | .sequence _ _ [s] => (ofSample s).map .array
  | .sequence .list _ items => .error (.itemCount items.length)
  | .sequence _ n _ => .error (.value n.typeName)
  | .mapping _ _ entries => (ofEntrySamples entries).map .object
  | .undefined => .error (.value Sample.undefined.typeName)
  | .null => .error (.value Sample.null.typeName)
  | .bool b => .error (.value (Sample.bool b).typeName)
  | .int n _ => .error (.value n.typeName)
  | .float n _ => .error (.value n.typeName)
  | .number n => .error (.value n.typeName)
  | .date n => .error (.value n.typeName)
  | .set n => .error (.value n.typeName)
  | .other n => .error (.value n.typeName)
termination_by structural s => s

/-- The fields that the entries of a mapping write. -/
def ofEntrySamples : List (Sample × Sample) → Except FormatError (List (Text × Descriptor))
  | [] => .ok []
  | (key, s) :: rest =>
    match key.content? with
    | none => .error (.key key.typeName)
    | some name => do
      let d ← ofSample s
      let fields ← ofEntrySamples rest
      return (name, d) :: fields
termination_by structural es => es

end

end Descriptor

end SampleTypes
