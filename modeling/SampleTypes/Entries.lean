import SampleTypes.Text.Basic

/-!
# Named entries

Objects are lists of named entries in the order in which the names first appeared. Setting a
name that is there already replaces its value and keeps its place, so a list built from pairs
holds, for each name, the last value at the first position.

## Main definitions

* `Entries` — entries in order
* `Entries.set`, `Entries.ofPairs` — one entry set, and all pairs set in turn
* `Entries.find?`, `Entries.names` — looking up and listing names
* `Entries.sort` — the entries in the order of their names

## Main results

* `Entries.find?_set_self`, `Entries.find?_set_of_ne` — what setting a name does to look-up
* `Entries.names_set_of_mem`, `Entries.names_set_of_not_mem` — and to the names
-/

namespace SampleTypes

/-- Named entries in order. Names may repeat; the entries that `ofPairs` builds have none that
do. -/
abbrev Entries (α : Type) := List (Text × α)

namespace Entries

variable {α : Type}

/-- Give a name a value: in place if the name is there, else at the end. -/
def set (name : Text) (value : α) : Entries α → Entries α
  | [] => [(name, value)]
  | (n, v) :: rest => if n = name then (n, value) :: rest else (n, v) :: set name value rest

/-- Set the pairs one after another: the first position and the last value of each name. -/
def ofPairs (pairs : List (Text × α)) : Entries α :=
  pairs.foldl (fun entries p => entries.set p.1 p.2) []

/-- The first value under a name. -/
def find? (name : Text) : Entries α → Option α
  | [] => none
  | (n, v) :: rest => if n = name then some v else find? name rest

/-- The names in order. -/
def names (entries : Entries α) : List Text := entries.map Prod.fst

@[simp] theorem find?_set_self (name : Text) (value : α) (entries : Entries α) :
    (entries.set name value).find? name = some value := by
  induction entries with
  | nil => simp [set, find?]
  | cons e rest ih =>
    by_cases h : e.1 = name
    · simp [set, find?, h]
    · simp [set, find?, h, ih]

theorem find?_set_of_ne {name other : Text} (h : other ≠ name) (value : α)
    (entries : Entries α) : (entries.set name value).find? other = entries.find? other := by
  induction entries with
  | nil => simp [set, find?, Ne.symm h]
  | cons e rest ih =>
    by_cases hn : e.1 = name
    · simp [set, find?, hn, Ne.symm h]
    · simp [set, find?, hn, ih]

/-- Setting a name that is there keeps the names in their order. -/
theorem names_set_of_mem {name : Text} {entries : Entries α} (h : name ∈ entries.names)
    (value : α) : (entries.set name value).names = entries.names := by
  induction entries with
  | nil => cases h
  | cons e rest ih =>
    by_cases hn : e.1 = name
    · simp [set, names, hn]
    · have hrest : name ∈ names rest := (List.mem_cons.1 h).resolve_left (Ne.symm hn)
      simpa [set, names, hn] using ih hrest

/-- A new name is added at the end. -/
theorem names_set_of_not_mem {name : Text} {entries : Entries α} (h : name ∉ entries.names)
    (value : α) : (entries.set name value).names = entries.names ++ [name] := by
  induction entries with
  | nil => rfl
  | cons e rest ih =>
    have hn : e.1 ≠ name := fun hn => h (hn ▸ List.mem_cons_self ..)
    have hrest : name ∉ names rest := fun hr => h (List.mem_cons_of_mem _ hr)
    simpa [set, names, hn] using ih hrest

/-- The entries in the order of their names. -/
def sort (entries : Entries α) : Entries α := entries.mergeSort fun a b => a.1.le b.1

end Entries

end SampleTypes
