import SampleTypes.Proofs.Json.Distinct

/-!
# The parts of a JSON value

What stands within a value at any depth, the value itself included, and what follows if the members
of every object in it are in the order of their names: then no object repeats a name, and sorting
changes nothing.

## Main definitions

* `Json.Within` — one value stands within another
* `Json.Ordered` — in every object within a value the names increase

## Main results

* `Json.within_array_iff`, `Json.within_object_iff` — what stands within arrays and objects
* `Json.Ordered.distinct`, `Json.Ordered.sorted_eq` — what follows from the order of the names
* `Json.kept_of_numbers` — the compact form keeps a value if it keeps the numbers within it
-/

namespace SampleTypes.Json

/-- A value stands within another: it is the other, or it stands within an item or a member. -/
inductive Within (i : Json) : Json → Prop
  | here : Within i i
  | item {items : List Json} {j : Json} (hj : j ∈ items) (h : Within i j) :
      Within i (.array items)
  | member {members : List (Text × Json)} {m : Text × Json} (hm : m ∈ members)
      (h : Within i m.2) : Within i (.object members)

/-- The names of every object increase, at any depth. Texts are compared by code points. -/
def Ordered (j : Json) : Prop :=
  ∀ members, Within (.object members) j → (Entries.names members).Pairwise (· < ·)

variable {i j : Json} {items : List Json} {members : List (Text × Json)}

theorem within_array_iff :
    Within i (.array items) ↔ i = .array items ∨ ∃ j ∈ items, Within i j := by
  constructor
  · rintro (_ | ⟨hj, h⟩)
    · exact .inl rfl
    · exact .inr ⟨_, hj, h⟩
  · rintro (rfl | ⟨j, hj, h⟩)
    · exact .here
    · exact .item hj h

theorem within_object_iff :
    Within i (.object members) ↔ i = .object members ∨ ∃ m ∈ members, Within i m.2 := by
  constructor
  · rintro (_ | _ | ⟨hm, h⟩)
    · exact .inl rfl
    · exact .inr ⟨_, hm, h⟩
  · rintro (rfl | ⟨m, hm, h⟩)
    · exact .here
    · exact .member hm h

/-- Within a value that has no parts there is only itself. -/
theorem within_iff_eq (noArray : ∀ items, j ≠ .array items)
    (noObject : ∀ members, j ≠ .object members) : Within i j ↔ i = j := by
  constructor
  · rintro (_ | _ | _)
    · rfl
    · exact absurd rfl (noArray _)
    · exact absurd rfl (noObject _)
  · rintro rfl
    exact .here

/-! ## Values in the order of names -/

theorem Ordered.nodup (h : Ordered (.object members)) : (Entries.names members).Nodup :=
  Entries.nodup_of_increasing (h members .here)

theorem ordered_array (h : ∀ j ∈ items, Ordered j) : Ordered (.array items) := by
  intro members within
  obtain ⟨j, hj, within⟩ := (within_array_iff.1 within).resolve_left (by simp)
  exact h j hj members within

theorem ordered_object (names : (Entries.names members).Pairwise (· < ·))
    (h : ∀ m ∈ members, Ordered m.2) : Ordered (.object members) := by
  intro members' within
  rcases within_object_iff.1 within with same | ⟨m, hm, within⟩
  · cases same
    exact names
  · exact h m hm members' within

theorem Ordered.item (h : Ordered (.array items)) (hj : j ∈ items) : Ordered j :=
  fun members within => h members (.item hj within)

theorem Ordered.member (h : Ordered (.object members)) {m : Text × Json} (hm : m ∈ members) :
    Ordered m.2 :=
  fun members within => h members (.member hm within)

/-- Names that increase do not repeat. -/
theorem Ordered.distinct (h : Ordered j) : Distinct j := by
  induction j with
  | null => exact .null
  | bool b => exact .bool b
  | int n => exact .int n
  | float x => exact .float x
  | text t => exact .text t
  | array items ih => exact .array fun j hj => ih j hj (h.item hj)
  | object members ih => exact .object h.nodup fun m hm => ih m hm (h.member hm)

/-- Sorting changes nothing where the names increase already. -/
theorem Ordered.sorted_eq (h : Ordered j) : j.sorted = j := by
  induction j with
  | array items ih =>
    have same : items.map sorted = items :=
      (List.map_congr_left fun j hj => ih j hj (h.item hj)).trans (List.map_id _)
    rw [sorted_array, same]
  | object members ih =>
    have same : members.map (fun m => (m.1, m.2.sorted)) = members :=
      (List.map_congr_left fun m hm => congrArg (Prod.mk m.1) (ih m hm (h.member hm))).trans
        (List.map_id _)
    rw [sorted_object, same, Entries.sort_eq_self (h members .here)]
  | _ => rfl

/-! ## Values that are kept -/

/-- The compact form keeps a value without repeated names if it keeps the numbers within it. -/
theorem kept_of_numbers (distinct : Distinct j)
    (ints : ∀ n, Within (.int n) j → SpellsScalar (.int n) (Text.ofInt n))
    (floats : ∀ x, Within (.float x) j → SpellsScalar (.float x) (numbers.write x)) :
    Kept false j := by
  have writable (t : Text) : Writable false t := fun h => absurd h (by decide)
  induction j with
  | null => exact .null
  | bool b => exact .bool b
  | int n => exact .int (ints n .here)
  | float x => exact .float (floats x .here)
  | text t => exact .text (writable t)
  | array items ih =>
    exact .array fun j hj => ih j hj (distinct.item hj) (fun n h => ints n (.item hj h))
      fun x h => floats x (.item hj h)
  | object members ih =>
    exact .object distinct.nodup (fun m _ => writable m.1) fun m hm =>
      ih m hm (distinct.member hm) (fun n h => ints n (.member hm h))
        fun x h => floats x (.member hm h)

end SampleTypes.Json
