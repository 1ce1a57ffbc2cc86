import SampleTypes.Entries
import SampleTypes.Number.Binary64

/-!
# JSON values

The values that a document holds. An object keeps its members in the order of the document.

## Main definitions

* `Json` — null, booleans, whole and floating-point numbers, texts, arrays and objects
* `Json.sorted` — the value with the members of every object in the order of their names
-/

namespace SampleTypes

/-- A JSON value. -/
inductive Json where
  | null
  | bool (b : Bool)
  | int (n : Int)
  | float (x : Binary64)
  | text (t : Text)
  | array (items : List Json)
  | object (members : List (Text × Json))
  deriving Inhabited, Repr

namespace Json

mutual

/-- The value with the members of every object in the order of their names. -/
def sorted : Json → Json
  | .null => .null
  | .bool b => .bool b
  | .int n => .int n
  | .float x => .float x
  | .text t => .text t
  | .array items => .array (sortedItems items)
  | .object members => .object (Entries.sort (sortedMembers members))
termination_by structural j => j

/-- Sorting within each item. -/
def sortedItems : List Json → List Json
  | [] => []
  | j :: rest => sorted j :: sortedItems rest
termination_by structural js => js

/-- Sorting within each member. -/
def sortedMembers : List (Text × Json) → List (Text × Json)
  | [] => []
  | (name, j) :: rest => (name, sorted j) :: sortedMembers rest
termination_by structural ms => ms

end

/-- The value of a member of an object. -/
def member? (name : Text) : Json → Option Json
  | .object members => Entries.find? name members
  | _ => none

end Json

end SampleTypes
