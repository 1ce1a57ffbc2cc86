import SampleTypes.Sample.Basic

/-!
# TOML documents

A document is a table. It grows statement by statement: a header opens a table, or a new item of
an array of tables, and an entry adds a value under a key to the table opened last. What is
there already limits what may follow: no value is replaced, no table is opened twice, and
nothing is added to a value that was written as a whole.

## Main definitions

* `Toml.Value` — values
* `Toml.Key` — dotted keys
* `Toml.Draft` — a document up to some statement, with what may not follow
* `Toml.Draft.openTable?`, `Toml.Draft.openItem?`, `Toml.Draft.assign?` — the statements
* `Sample.ofToml` — the sample that a value holds
-/

namespace SampleTypes

namespace Toml

/-- A value. Dates and times are kept as they are written. -/
inductive Value where
  | text (t : Text)
  | integer (n : Int)
  | float (x : Binary64)
  | bool (b : Bool)
  /-- A day, with or without a time of the day. -/
  | date (written : Text)
  /-- A time of some day. -/
  | time (written : Text)
  | array (items : List Value)
  | table (entries : List (Text × Value))
  deriving Repr

/-- Whether a value is written as a whole with what is in it. -/
def Value.isCollection : Value → Bool
  | array _ => true
  | table _ => true
  | _ => false

/-- A way through tables by names. -/
abbrev Path := List Text

/-- A dotted key: the way to a table, and a name in it. -/
structure Key where
  parent : Path := []
  name : Text
  deriving DecidableEq, Repr

/-- All names of a key. -/
def Key.path (k : Key) : Path := k.parent ++ [k.name]

/-- Change the table at the end of a way. Tables that are missing on the way are made; of an
array of tables the last one counts; there is no way through any other value. -/
def change? (f : Entries Value → Option (Entries Value)) :
    Path → Entries Value → Option (Entries Value)
  | [], entries => f entries
  | name :: path, entries =>
    match entries.find? name with
    | none => (change? f path []).map fun inner => entries.set name (.table inner)
    | some (.table inner) =>
      (change? f path inner).map fun inner => entries.set name (.table inner)
    | some (.array items) =>
      match items.getLast? with
      | some (.table inner) =>
        (change? f path inner).map fun inner =>
          entries.set name (.array (items.dropLast ++ [.table inner]))
      | _ => none
    | some _ => none

/-- A document up to some statement. -/
structure Draft where
  root : Entries Value := []
  /-- The way to the table that was opened last. -/
  header : Path := []
  /-- Tables that may not be opened, nor be reached by a dotted key. -/
  closed : List Path := []
  /-- Tables that were reached by a dotted key. They are closed by the next header. -/
  reached : List Path := []
  /-- Values that were written as a whole, to which nothing may be added. -/
  sealed : List Path := []
  deriving Repr

namespace Draft

/-- Whether a way leads to or through a value that was written as a whole. -/
def isSealed (d : Draft) (path : Path) : Bool := d.sealed.any (·.isPrefixOf path)

/-- The draft with the tables closed that dotted keys reached. -/
def closeReached (d : Draft) : Draft := { d with closed := d.reached ++ d.closed, reached := [] }

/-- Open a table, if it is not closed and no other value is in the way. -/
def openTable? (d : Draft) (key : Key) : Option Draft :=
  let d := d.closeReached
  if d.closed.contains key.path || d.isSealed key.path then none
  else (change? some key.path d.root).map fun root =>
    { d with root, header := key.path, closed := key.path :: d.closed }

/-- Append a table to the array of tables under a name. -/
def appendTable? (name : Text) (entries : Entries Value) : Option (Entries Value) :=
  match entries.find? name with
  | none => some (entries.set name (.array [.table []]))
  | some (.array items) => some (entries.set name (.array (items ++ [.table []])))
  | some _ => none

/-- Open a new item of an array of tables. In the new item, all tables may be opened that were
opened in the item before. -/
def openItem? (d : Draft) (key : Key) : Option Draft :=
  let d := d.closeReached
  let isOutside (path : Path) : Bool := !key.path.isPrefixOf path
  if d.isSealed key.path then none
  else (change? (appendTable? key.name) key.parent d.root).map fun root =>
    { d with
      root, header := key.path
      closed := key.path :: d.closed.filter isOutside
      sealed := d.sealed.filter isOutside }

/-- The tables that a key passes through on its way from the header. -/
def passed (d : Draft) (key : Key) : List Path :=
  (List.range key.parent.length).map fun i => d.header ++ key.parent.take (i + 1)

/-- Add a value to the table opened last, if its name is free and its key passes through no table
that was closed and no value that was written as a whole. -/
def assign? (d : Draft) (key : Key) (value : Value) : Option Draft :=
  let parent := d.header ++ key.parent
  let add (entries : Entries Value) : Option (Entries Value) :=
    if (entries.find? key.name).isSome then none else some (entries.set key.name value)
  if (d.passed key).any d.closed.contains || d.isSealed parent then none
  else (change? add parent d.root).map fun root =>
    { d with
      root, reached := d.passed key ++ d.reached
      sealed := if value.isCollection then (d.header ++ key.path) :: d.sealed else d.sealed }

end Draft

end Toml

namespace Sample

open Toml

mutual

/-- The sample that a value holds. -/
def ofToml : Value → Sample
  | .text t => ofText t
  | .integer n => ofInt n
  | .float x => ofFloat x
  | .bool b => .bool b
  | .date _ => .date (Nature.named "date")
  | .time _ => .other (Nature.named "time")
  | .array items => list (ofTomlItems items)
  | .table entries => .mapping .dict (Nature.named "dict") (ofTomlEntries entries)
termination_by structural v => v

/-- The samples of the items. -/
def ofTomlItems : List Value → List Sample
  | [] => []
  | v :: rest => ofToml v :: ofTomlItems rest
termination_by structural vs => vs

/-- The keys and values of the entries. -/
def ofTomlEntries : List (Text × Value) → List (Sample × Sample)
  | [] => []
  | (name, v) :: rest => (ofText name, ofToml v) :: ofTomlEntries rest
termination_by structural es => es

end

end Sample

end SampleTypes
