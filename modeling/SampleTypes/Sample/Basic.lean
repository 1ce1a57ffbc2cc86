import SampleTypes.Json.Basic
import SampleTypes.Number.Exact
import SampleTypes.Text.Quoted

/-!
# Samples

A sample is a value whose structural type is wanted: a finite tree of scalars, sequences and
mappings, and of values that are only known by their nature. The nature of a value is what its
type says about it, whatever it holds: the name of the type, whether the value can be called,
whether it promises a result, whether it counts as true or as false, and how it prints.

## Main definitions

* `Nature`, `Sample` — the values
* `Sample.shown`, `Sample.quoted` — the text of a value on its own and within another
* `Sample.dict` — a mapping from pairs, in which a later equal key replaces the value
* `Sample.ofJson` — the sample that a document holds
-/

namespace SampleTypes

/-- How a value prints on its own, and within another value. -/
structure Label where
  shown : Text
  quoted : Text
  deriving DecidableEq, Repr

/-- What the type of a value says about it, whatever the value holds. -/
structure Nature where
  typeName : Text
  callable : Bool := false
  /-- The value will have a result later. -/
  promise : Bool := false
  /-- What the value counts as, where that does not follow from what it holds: false though it may
  hold something, or true though it may hold nothing. -/
  truth : Option Bool := none
  /-- How the value prints, where that does not follow from what it holds. -/
  label : Option Label := none
  /-- The text that a record takes the value for where it wants a text, though the value is none:
  that of encoded bytes, or of the value of an enumeration member. -/
  asText : Option Text := none
  deriving DecidableEq, Repr

/-- The nature of the plain values of a type. -/
def Nature.named (typeName : String) : Nature := { typeName := Text.ofString typeName }

/-- Whether a container counts as true: as its type says, or else if it holds something. -/
def Nature.countsTrue {α : Type} (n : Nature) (contents : List α) : Bool :=
  n.truth.getD !contents.isEmpty

/-- The kinds of sequence. -/
inductive SequenceKind where
  | list
  | tuple
  /-- Items in order, in a container that is neither a list nor a tuple. -/
  | run
  deriving DecidableEq, Repr

/-- The kinds of mapping. -/
inductive MappingKind where
  | dict
  /-- Keys and values in a container that is no dictionary. -/
  | view
  deriving DecidableEq, Repr

/-- A value whose structural type is wanted. -/
inductive Sample where
  /-- The marker of an absent value. -/
  | undefined
  | null
  | bool (b : Bool)
  | text (nature : Nature) (content : Text)
  | int (nature : Nature) (n : Int)
  | float (nature : Nature) (x : Binary64)
  /-- A number that is neither whole nor floating-point. -/
  | number (nature : Nature)
  | date (nature : Nature)
  | sequence (kind : SequenceKind) (nature : Nature) (items : List Sample)
  | mapping (kind : MappingKind) (nature : Nature) (entries : List (Sample × Sample))
  /-- A mutable set, whose items have no order and are not looked at. -/
  | set (nature : Nature)
  /-- A value of any other type. -/
  | other (nature : Nature)
  deriving Repr

namespace Sample

/-- The nature of a value. -/
def nature : Sample → Nature
  | undefined =>
    { Nature.named "_Undefined" with
      truth := some false, label := some ⟨Text.ofString "UNDEFINED", Text.ofString "UNDEFINED"⟩ }
  | null => { Nature.named "NoneType" with truth := some false }
  | bool b => { Nature.named "bool" with truth := some b }
  | text n _ => n
  | int n _ => n
  | float n _ => n
  | number n => n
  | date n => n
  | sequence _ n _ => n
  | mapping _ n _ => n
  | set n => n
  | other n => n

/-- The name of the type of a value. -/
def typeName (s : Sample) : Text := s.nature.typeName

/-- Whether a value promises a result. -/
def isPromise (s : Sample) : Bool := s.nature.promise

/-- The content of a value that is a text. -/
def content? : Sample → Option Text
  | text _ t => some t
  | _ => none

/-! ## Plain values -/

/-- A text and nothing more. -/
def ofText (t : Text) : Sample := .text (Nature.named "str") t

/-- A whole number and nothing more. -/
def ofInt (n : Int) : Sample := .int (Nature.named "int") n

/-- A floating-point number and nothing more. -/
def ofFloat (x : Binary64) : Sample := .float (Nature.named "float") x

/-- A plain list. -/
def list (items : List Sample) : Sample := .sequence .list (Nature.named "list") items

/-- A plain tuple. -/
def tuple (items : List Sample) : Sample := .sequence .tuple (Nature.named "tuple") items

/-- A number of another type, which prints as given. -/
def numberOf (typeName : String) (shown quoted : Text) : Sample :=
  .number { Nature.named typeName with label := some ⟨shown, quoted⟩ }

/-- A decimal number. -/
def ofDecimal (x : Decimal) : Sample :=
  numberOf "Decimal" x.write
    (Text.ofString "Decimal(" ++ x.write.quoted ++ Text.ofString ")")

/-- A fraction. -/
def ofFraction (x : Fraction) : Sample := numberOf "Fraction" x.write x.writePair

/-- A complex number. -/
def ofComplex (z : Complex) : Sample := numberOf "complex" z.write z.write

/-! ## Printing -/

/-- Parts between parentheses; a single one is followed by a comma. -/
def parenthesized (parts : List Text) : Text :=
  match parts with
  | [t] => ofChar '(' :: (t ++ Text.ofString ",)")
  | _ => ofChar '(' :: (Text.joinWith (Text.ofString ", ") parts ++ [ofChar ')'])

/-- The label of a nature, or else a text of the value's own. -/
def labelOr (n : Nature) (own : Text) : Text := (n.label.map Label.quoted).getD own

/-- What stands for a value that has no text: the name of its type. -/
def anonymous (n : Nature) : Text := ofChar '<' :: (n.typeName ++ [ofChar '>'])

mutual

/-- The text of a value within another. -/
def quoted : Sample → Text
  | undefined => Text.ofString "UNDEFINED"
  | null => Text.ofString "None"
  | bool b => if b then Text.ofString "True" else Text.ofString "False"
  | text n t => labelOr n t.quoted
  | int n i => labelOr n (Text.ofInt i)
  | float n x => labelOr n (Layout.word.write x)
  | sequence .tuple n items => labelOr n (parenthesized (quotedItems items))
  | sequence _ n items =>
    labelOr n (ofChar '[' :: (Text.joinWith (Text.ofString ", ") (quotedItems items)
      ++ [ofChar ']']))
  | number n => labelOr n (anonymous n)
  | date n => labelOr n (anonymous n)
  | mapping _ n _ => labelOr n (anonymous n)
  | set n => labelOr n (anonymous n)
  | other n => labelOr n (anonymous n)
termination_by structural s => s

/-- The texts of the items of a sequence. -/
def quotedItems : List Sample → List Text
  | [] => []
  | s :: rest => quoted s :: quotedItems rest
termination_by structural ss => ss

end

/-- The text of a value on its own, which is also the name of the field that it is the key of. A
text is shown without quotes. -/
def shown (s : Sample) : Text :=
  match s.nature.label with
  | some l => l.shown
  | none => s.content?.getD s.quoted

/-! ## Mappings -/

mutual

/-- Whether two keys are equal: texts by what they hold, numbers by their value, tuples item by
item, and other values if they have the same type and text. -/
def sameKey : Sample → Sample → Bool
  | text _ s, text _ t => s == t
  | int _ m, int _ n => m == n
  | float _ x, float _ y => x.same y
  | sequence .tuple _ xs, sequence .tuple _ ys => sameKeys xs ys
  -- A text equals texts only, whatever another value prints as.
  | a, b => a.typeName == b.typeName && a.content?.isNone && a.quoted == b.quoted
termination_by structural a => a

/-- Whether two lists of keys are equal item by item. -/
def sameKeys : List Sample → List Sample → Bool
  | [], [] => true
  | a :: as, b :: bs => sameKey a b && sameKeys as bs
  | _, _ => false
termination_by structural as => as

end

/-- Give a key a value: in place of that of an equal key, or else at the end. -/
def setKey {α : Type} (key : Sample) (value : α) : List (Sample × α) → List (Sample × α)
  | [] => [(key, value)]
  | (k, v) :: rest =>
    if k.sameKey key then (k, value) :: rest else (k, v) :: setKey key value rest

/-- Pairs with equal keys merged: the first key and its place, the last value. -/
def mergeKeys {α : Type} (pairs : List (Sample × α)) : List (Sample × α) :=
  pairs.foldl (fun entries p => setKey p.1 p.2 entries) []

/-- A dictionary of some nature from pairs. -/
def dictOf (n : Nature) (pairs : List (Sample × Sample)) : Sample :=
  .mapping .dict n (mergeKeys pairs)

/-- A plain dictionary from pairs. -/
def dict (pairs : List (Sample × Sample)) : Sample := dictOf (Nature.named "dict") pairs

/-- The value under a key that is a text. -/
def lookup? (name : Text) (entries : List (Sample × Sample)) : Option Sample :=
  (entries.find? fun e => e.1.content? == some name).map Prod.snd

/-! ## Documents -/

mutual

/-- The sample that a document holds. -/
def ofJson : Json → Sample
  | .null => .null
  | .bool b => .bool b
  | .int n => ofInt n
  | .float x => ofFloat x
  | .text t => ofText t
  | .array items => list (ofItems items)
  | .object members => .mapping .dict (Nature.named "dict") (ofMembers members)
termination_by structural j => j

/-- The samples of the items. -/
def ofItems : List Json → List Sample
  | [] => []
  | j :: rest => ofJson j :: ofItems rest
termination_by structural js => js

/-- The keys and values of the members. -/
def ofMembers : List (Text × Json) → List (Sample × Sample)
  | [] => []
  | (name, j) :: rest => (ofText name, ofJson j) :: ofMembers rest
termination_by structural ms => ms

end

end Sample

end SampleTypes
