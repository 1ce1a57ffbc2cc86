import SampleTypes.Sample.Basic

/-!
# Descriptors

A descriptor is a structural type: one of nine primitives, an array of one element type, or an
object of named field types in order. An outline is a descriptor in which values that are no
descriptors may have strayed into any place; a descriptor is an outline without room for them.

## Main definitions

* `Tag` — the primitives
* `Outline`, `Descriptor` — types with and without room for stray values
* `Descriptor.ofEntries` — an object type from keys and types
* `Outline.settled` — the value of a computation that only a stray value can stop
-/

namespace SampleTypes

/-- The primitive types. -/
inductive Tag where
  | string
  | number
  | boolean
  | undefined
  | null
  /-- Nothing is known of the type. -/
  | unknown
  /-- Items of an array have different types. -/
  | mixed
  | promise
  | date
  deriving DecidableEq, Repr

namespace Tag

/-- All primitives. -/
def all : List Tag :=
  [string, number, boolean, undefined, null, unknown, mixed, promise, date]

/-- The word for a primitive. -/
def word : Tag → String
  | string => "string"
  | number => "number"
  | boolean => "boolean"
  | undefined => "undefined"
  | null => "null"
  | unknown => "unknown"
  | mixed => "mixed"
  | promise => "Promise"
  | date => "Date"

/-- The text of a primitive. -/
def text (t : Tag) : Text := Text.ofString t.word

/-- The primitive with a given text. -/
def ofText? (t : Text) : Option Tag := all.find? fun tag => tag.text == t

/-- A primitive as a sample: a text that prints as a member of its enumeration. -/
def sample (t : Tag) : Sample :=
  let member := Text.ofString "PrimitiveTag." ++ t.text.map CodePoint.toUpper
  let quoted := ofChar '<' :: (member ++ Text.ofString ": " ++ t.text.quoted ++ [ofChar '>'])
  .text { Nature.named "PrimitiveTag" with label := some ⟨member, quoted⟩ } t.text

end Tag

/-- A structural type in which values of `φ` may have strayed into the places of types. -/
inductive Outline (φ : Type) where
  | primitive (tag : Tag)
  | array (element : Outline φ)
  | object (fields : List (Text × Outline φ))
  | stray (value : φ)
  deriving Repr

/-- A structural type. -/
abbrev Descriptor := Outline Empty

namespace Outline

variable {φ : Type}

mutual

/-- Whether two outlines are the same, the order of fields included. -/
def same [BEq φ] : Outline φ → Outline φ → Bool
  | .primitive s, .primitive t => s == t
  | .array a, .array b => same a b
  | .object as, .object bs => sameFields as bs
  | .stray x, .stray y => x == y
  | _, _ => false
termination_by structural a => a

/-- Whether two lists of fields are the same. -/
def sameFields [BEq φ] : List (Text × Outline φ) → List (Text × Outline φ) → Bool
  | [], [] => true
  | (m, a) :: as, (n, b) :: bs => m == n && same a b && sameFields as bs
  | _, _ => false
termination_by structural as => as

end

instance [BEq φ] : BEq (Outline φ) := ⟨same⟩

/-- A computation on descriptors that only a stray value can stop always has a value. -/
def settled {α : Type} : Except Empty α → α
  | .ok a => a
  | .error e => nomatch e

@[simp] theorem settled_ok {α : Type} (a : α) : settled (.ok a) = a := rfl

end Outline

namespace Descriptor

/-- The object type without fields. -/
def emptyObject : Descriptor := .object []

/-- An object type from keys and types. The fields have the texts of the keys; of keys with the
same text the first gives the place and the last the type. -/
def ofEntries (entries : List (Sample × Descriptor)) : Descriptor :=
  .object (Entries.ofPairs (entries.map fun e => (e.1.shown, e.2)))

/-- The fields of an object type; other types have none. -/
def fields : Descriptor → List (Text × Descriptor)
  | .object fields => fields
  | _ => []

/-- The names of the fields of an object type. -/
def names (d : Descriptor) : List Text := Entries.names d.fields

/-- The type of a field of an object type. -/
def field? (d : Descriptor) (name : Text) : Option Descriptor := Entries.find? name d.fields

end Descriptor

end SampleTypes
