import SampleTypes.Proofs.Canonical.Basic
import SampleTypes.Proofs.Json.Sorted

/-!
# Values whose objects repeat no name

The objects that a document holds, and those that a type is written as, name no member twice. As
a sample such a value has its sorted form for its canonical form: no entry overrides another, and
nothing in it is refused.

## Main definitions

* `Json.Distinct` — no object repeats a name

## Main results

* `Json.Kept.distinct` — what a form keeps repeats no name
* `Sample.canonical_ofJson`, `Sample.encode_ofJson` — the canonical form, and its text
* `Sample.digest_ofJson` — as a sample, a value has the digest that it has as a value
-/

namespace SampleTypes

namespace Json

/-- No object names a member twice, at any depth. -/
inductive Distinct : Json → Prop
  | null : Distinct .null
  | bool (b : Bool) : Distinct (.bool b)
  | int (n : Int) : Distinct (.int n)
  | float (x : Binary64) : Distinct (.float x)
  | text (t : Text) : Distinct (.text t)
  | array {items : List Json} (h : ∀ j ∈ items, Distinct j) : Distinct (.array items)
  | object {members : List (Text × Json)} (nodup : (Entries.names members).Nodup)
      (h : ∀ m ∈ members, Distinct m.2) : Distinct (.object members)

theorem Distinct.item {items : List Json} (h : Distinct (.array items)) {j : Json}
    (hj : j ∈ items) : Distinct j := by
  cases h with
  | array h => exact h j hj

theorem Distinct.nodup {members : List (Text × Json)} (h : Distinct (.object members)) :
    (Entries.names members).Nodup := by
  cases h with
  | object nodup _ => exact nodup

theorem Distinct.member {members : List (Text × Json)} (h : Distinct (.object members))
    {m : Text × Json} (hm : m ∈ members) : Distinct m.2 := by
  cases h with
  | object _ h => exact h m hm

theorem Kept.distinct {ascii : Bool} {j : Json} (h : Kept ascii j) : Distinct j := by
  induction h with
  | null => exact .null
  | bool b => exact .bool b
  | int _ => exact .int _
  | float _ => exact .float _
  | text _ => exact .text _
  | array _ ih => exact .array ih
  | object nodup _ _ ih => exact .object nodup ih

end Json

/-! ## Canonical forms -/

namespace Sample

theorem ofItems_eq_map (items : List Json) : ofItems items = items.map ofJson := by
  induction items with
  | nil => rfl
  | cons j rest ih => rw [ofItems, ih, List.map_cons]

theorem ofMembers_eq_map (members : List (Text × Json)) :
    ofMembers members = members.map fun m => (ofText m.1, ofJson m.2) := by
  induction members with
  | nil => rfl
  | cons m rest ih => rw [ofMembers, ih, List.map_cons]

/-- The canonical form of a value that repeats no name is its sorted form. -/
theorem canonical_ofJson {j : Json} (h : j.Distinct) : (ofJson j).canonical = .ok j.sorted := by
  induction j with
  | null => rfl
  | bool b => rfl
  | int n => rfl
  | float x => rfl
  | text t => rfl
  | array items ih =>
    rw [ofJson, list, ofItems_eq_map, Json.sorted_array, canonical_sequence_iff]
    refine ⟨by decide, _, ?_, rfl⟩
    rw [List.forall₂_map_left_iff, List.forall₂_map_right_iff, List.forall₂_same]
    exact fun j hj => ih j hj (h.item hj)
  | object members ih =>
    have labels : labelled (ofMembers members) = members.map fun m => (m.1, ofJson m.2) := by
      rw [labelled, ofMembers_eq_map, List.map_map]
      rfl
    have nodup : (Entries.names (members.map fun m => (m.1, ofJson m.2))).Nodup := by
      rw [Entries.names_map]
      exact h.nodup
    -- No name repeats, so nothing is merged; sorting looks at the names alone.
    rw [ofJson, Json.sorted_object, canonical_mapping_iff, labels, Entries.merged_eq_self nodup,
      Entries.sort_map, Entries.sort_map]
    refine ⟨_, ?_, rfl⟩
    rw [Entries.Related, List.forall₂_map_left_iff, List.forall₂_map_right_iff, List.forall₂_same]
    intro m hm
    have member : m ∈ members := (Entries.sort_perm members).mem_iff.1 hm
    exact ⟨rfl, ih m member (h.member member)⟩

theorem encode_ofJson {j : Json} (h : j.Distinct) :
    (ofJson j).encode = .ok j.sorted.compact := by
  rw [encode, canonical_ofJson h]
  rfl

/-- As a sample, a value that repeats no name has the digest that it has as a value. -/
theorem digest_ofJson {j : Json} (h : j.Distinct) :
    (ofJson j).digest = j.digest.mapError .unencodable := by
  simp only [digest, encode_ofJson h, Json.digest]
  cases Utf8.encode j.sorted.compact <;> rfl

end Sample

end SampleTypes
