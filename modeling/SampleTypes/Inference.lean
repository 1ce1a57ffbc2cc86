import SampleTypes.Descriptor.Shape

/-!
# Inference

The structural type of a sample. A list or tuple has one element type if all its items have the
same shape, and is mixed otherwise; a mapping has a field for every key. A value that can be
called has no type, wherever it stands, and stops the inference; the error says on which path
from the root it was found. A list or tuple that holds nothing has a type only if it counts as
false: one that counts as true stops the inference too, since no item gives it a type.

## Main definitions

* `Step`, `Path` — the way from the root of a sample to a part of it, and its text
* `Unsupported` — the error for a value that can be called, with its message
* `Untyped` — why a value has no type
* `infer` — the type of a sample
-/

namespace SampleTypes

/-- A step from a value to a part of it. -/
inductive Step where
  /-- To the item at an index. -/
  | index (n : Int)
  /-- To the item at an index that is written as a truth value. -/
  | truth (b : Bool)
  /-- To the value under a name. -/
  | name (t : Text)
  deriving DecidableEq, Repr

/-- The steps from the root. -/
abbrev Path := List Step

namespace Path

/-- The last name on a path. -/
def nearestKey (path : Path) : Option Text :=
  path.reverse.findSome? fun
    | .name t => some t
    | _ => none

/-- The text of a step: an index in brackets, and a name after a point unless it is first. -/
def formatStep (first : Bool) : Step → Text
  | .index n => ofChar '[' :: (Text.ofInt n ++ [ofChar ']'])
  | .truth b => ofChar '[' :: ((Sample.bool b).quoted ++ [ofChar ']'])
  | .name t => if first then t else ofChar '.' :: t

/-- The text of the steps one after another. -/
def formatSteps : Path → Text
  | [] => []
  | step :: rest => formatStep true step ++ rest.flatMap (formatStep false)

/-- The text of a path. A path without text is that of the root. -/
def format (path : Path) : Text :=
  let t := formatSteps path
  if t = [] then Text.ofString "<root>" else t

end Path

/-- A value that can be called was found. -/
structure Unsupported where
  /-- The nearest name on the path. -/
  key : Option Text := none
  path : Path := []
  typeName : Text := Text.ofString "function"
  deriving DecidableEq, Repr

/-- The key and the path are named if there is a key. -/
def Unsupported.message (e : Unsupported) : Text :=
  Text.ofString "Functions are not supported for type inference" ++
    match e.key with
    | none => [ofChar '.']
    | some key =>
      Text.ofString " (key '" ++ key ++ Text.ofString "' at path " ++ e.path.format
        ++ Text.ofString ")."

/-- The error for a value of some nature that was found on a path. -/
def Unsupported.found (path : Path) (n : Nature) : Unsupported :=
  ⟨path.nearestKey, path, n.typeName⟩

/-- Why a value has no type. -/
inductive Untyped where
  /-- A value that can be called was found. -/
  | unsupported (error : Unsupported)
  /-- A list or tuple was found that counts as true and has no item to take a type from. -/
  | noItem
  deriving DecidableEq, Repr

/-- The text of the error. There is nothing to say where an item is wanting. -/
def Untyped.message : Untyped → Text
  | unsupported error => error.message
  | noItem => []

/-- The type of a list with items of the given types: that of the first item if all items have
its shape. -/
def Descriptor.ofItems : List Descriptor → Descriptor
  | [] => .array (.primitive .unknown)
  | d :: rest =>
    -- Sameness of shape is an equivalence, so the first item can stand for all others.
    let key := d.shapeKey
    .array (if rest.all fun e => key == e.shapeKey then d else .primitive .mixed)

mutual

/-- The type of a sample that stands at the end of a path. -/
def inferAt (path : Path) : Sample → Except Untyped Descriptor
  | .undefined => .ok (.primitive .undefined)
  | .null => .ok (.primitive .null)
  | .text _ _ => .ok (.primitive .string)
  | .bool _ => .ok (.primitive .boolean)
  | .int _ _ => .ok (.primitive .number)
  | .float _ _ => .ok (.primitive .number)
  | .number _ => .ok (.primitive .number)
  | .date _ => .ok (.primitive .date)
  | .sequence kind n items =>
    -- What can be called is refused before anything is asked about its contents.
    if n.callable then .error (.unsupported (.found path n))
    else if n.promise then .ok (.primitive .promise)
    else match kind with
      | .run => .ok (.primitive .unknown)
      | _ =>
        if n.countsTrue items then
          -- What counts as true is gone through, and need not hold anything.
          if items.isEmpty then .error .noItem else (inferItems path 0 items).map .ofItems
        else .ok (.ofItems [])
  | .mapping _ n entries =>
    if n.callable then .error (.unsupported (.found path n))
    else if n.promise then .ok (.primitive .promise)
    else if n.countsTrue entries then
      (inferEntries path entries).map fun fields => .object (Entries.ofPairs fields)
    else .ok Descriptor.emptyObject
  | .set n =>
    if n.callable then .error (.unsupported (.found path n))
    else .ok (.primitive (if n.promise then .promise else .unknown))
  | .other n =>
    if n.callable then .error (.unsupported (.found path n))
    else .ok (.primitive (if n.promise then .promise else .unknown))
termination_by structural s => s

/-- The types of items, of which the first has the given index. -/
def inferItems (path : Path) (index : Nat) : List Sample → Except Untyped (List Descriptor)
  | [] => .ok []
  | s :: rest => do
    let d ← inferAt (path ++ [.index index]) s
    let ds ← inferItems path (index + 1) rest
    return d :: ds
termination_by structural ss => ss

/-- The names and types of the entries of a mapping. -/
def inferEntries (path : Path) :
    List (Sample × Sample) → Except Untyped (List (Text × Descriptor))
  | [] => .ok []
  | (key, s) :: rest => do
    -- A value is visited even if a later key of the same text will replace its field.
    let d ← inferAt (path ++ [.name key.shown]) s
    let fields ← inferEntries path rest
    return (key.shown, d) :: fields
termination_by structural es => es

end

/-- The structural type of a sample. -/
def infer (s : Sample) : Except Untyped Descriptor := inferAt [] s

end SampleTypes
