import SampleTypes.Proofs.Descriptor.Built
import SampleTypes.Proofs.Inference.Documents
import SampleTypes.Proofs.Json.Collision

/-!
# All names in a type

A type names fields at every depth. Whatever way a type comes from a JSON value, by inference or by
reading, all its names are names of members there; so a value without surrogates has a type without
them. The JSON form of a type has all its names in it, and nothing else that is not ASCII.

## Main definitions

* `Outline.allNames`, `Outline.EncodableNames` — the names of the fields at every depth, and types
  in which they are without surrogates

## Main results

* `Descriptor.encodable_toJson_iff` — which types have JSON forms without surrogates
* `encodableNames_of_infer`, `Descriptor.encodableNames_of_ofSample` — the names in the type of a
  document, and in a type that is read
-/

namespace SampleTypes

namespace Outline

variable {φ : Type}

mutual

/-- The names of the fields in a type, at every depth. -/
def allNames : Outline φ → List Text
  | .primitive _ => []
  | .array element => allNames element
  | .object fields => allFieldNames fields
  | .stray _ => []
termination_by structural o => o

/-- The names of fields, and the names in their types. -/
def allFieldNames : List (Text × Outline φ) → List Text
  | [] => []
  | (name, o) :: rest => name :: (allNames o ++ allFieldNames rest)
termination_by structural fields => fields

end

theorem allNames_object_cons (f : Text × Outline φ) (fields : List (Text × Outline φ)) :
    allNames (.object (f :: fields)) = f.1 :: (f.2.allNames ++ allNames (.object fields)) := rfl

theorem mem_allNames_object {fields : List (Text × Outline φ)} {name : Text} :
    name ∈ allNames (.object fields) ↔ ∃ f ∈ fields, name = f.1 ∨ name ∈ f.2.allNames := by
  induction fields with
  | nil => simp [allNames, allFieldNames]
  | cons f fields ih =>
    rw [allNames_object_cons, List.mem_cons, List.mem_append, ih, List.exists_mem_cons_iff,
      or_assoc]

/-- Something holds of all names in an object type if it holds of the names of its fields and of
those in their types. -/
theorem forall_mem_allNames_object {fields : List (Text × Outline φ)} {P : Text → Prop} :
    (∀ name ∈ allNames (.object fields), P name) ↔
      ∀ f ∈ fields, P f.1 ∧ ∀ name ∈ f.2.allNames, P name := by
  simp only [mem_allNames_object]
  constructor
  · exact fun h f hf => ⟨h _ ⟨f, hf, .inl rfl⟩, fun name inside => h _ ⟨f, hf, .inr inside⟩⟩
  · rintro h name ⟨f, hf, rfl | inside⟩
    · exact (h f hf).1
    · exact (h f hf).2 name inside

/-- No name in a type has a surrogate in it. -/
def EncodableNames (o : Outline φ) : Prop := ∀ name ∈ o.allNames, name.Encodable

theorem encodableNames_object {fields : List (Text × Outline φ)} :
    EncodableNames (.object fields) ↔ ∀ f ∈ fields, f.1.Encodable ∧ f.2.EncodableNames :=
  forall_mem_allNames_object

end Outline

open Outline (EncodableNames encodableNames_object)

namespace Descriptor

theorem encodableNames_primitive (tag : Tag) : EncodableNames (.primitive tag : Descriptor) :=
  nofun

/-- The JSON form of a type has its names in it, and the words of primitives. -/
theorem encodable_toJson_iff {d : Descriptor} (distinct : Outline.Distinct d) :
    d.toJson.Encodable ↔ EncodableNames d := by
  induction d with
  | primitive tag =>
    refine iff_of_true ?_ (encodableNames_primitive tag)
    have ascii : Text.Ascii tag.text := by cases tag <;> decide
    exact .text ascii.isSurrogate_eq
  | array element ih =>
    rw [toJson_array]
    refine Iff.trans ⟨fun h => h.item (List.mem_singleton_self _), fun h => ?_⟩
      (ih distinct.element)
    exact .array (List.forall_mem_singleton.2 h)
  | object fields ih =>
    rw [toJson_object_of_nodup distinct.nodup, encodableNames_object]
    constructor
    · intro h f hf
      have mem := List.mem_map_of_mem (f := fun f : Text × Descriptor => (f.1, f.2.toJson)) hf
      exact ⟨h.name mem, (ih f hf (distinct.field hf)).1 (h.member mem)⟩
    · intro h
      refine .object (List.forall_mem_map.2 fun f hf => (h f hf).1) ?_
      exact List.forall_mem_map.2 fun f hf => (ih f hf (distinct.field hf)).2 (h f hf).2

/-! ## Types of documents -/

theorem encodableNames_ofItems {types : List Descriptor} (h : ∀ d ∈ types, EncodableNames d) :
    EncodableNames (ofItems types) := by
  cases types with
  | nil => exact encodableNames_primitive .unknown
  | cons d rest =>
    rw [ofItems]
    split_ifs
    · exact h d (List.mem_cons_self ..)
    · exact encodableNames_primitive .mixed

end Descriptor

/-- A document without surrogates has a type without them. -/
theorem encodableNames_of_infer {j : Json} (h : j.Encodable) {d : Descriptor}
    (inferred : infer (Sample.ofJson j) = .ok d) : EncodableNames d := by
  induction j generalizing d with
  | null | bool | int | float | text =>
    cases inferred
    exact Descriptor.encodableNames_primitive _
  | array items ih =>
    obtain ⟨-, types, found, rfl⟩ := (infer_sequence_iff (by decide) (by decide) _ _).1 inferred
    rw [Sample.ofItems_eq_map, List.forall₂_map_left_iff] at found
    refine Descriptor.encodableNames_ofItems fun d hd => ?_
    obtain ⟨j, hj, inferred⟩ := exists_of_mem_right found hd
    exact ih j hj (h.item hj) inferred
  | object members ih =>
    obtain ⟨fields, found, rfl⟩ := (infer_mapping_iff (by decide) _ _).1 inferred
    rw [Sample.ofMembers_eq_map, List.forall₂_map_left_iff] at found
    refine encodableNames_object.2 fun f hf => ?_
    obtain ⟨m, hm, name, inferred⟩ := exists_of_mem_right found (Entries.mem_of_mem_merged hf)
    have name : f.1 = m.1 := name
    exact ⟨name ▸ h.name hm, ih m hm (h.member hm) inferred⟩

/-! ## Types that are read -/

/-- What is read from a value without surrogates is a type without them. -/
theorem Descriptor.encodableNames_of_ofSample {j : Json} (h : j.Encodable) {d : Descriptor}
    (read : ofSample (Sample.ofJson j) = .ok d) : EncodableNames d := by
  induction j generalizing d with
  | null | bool | int | float => cases read
  | text t =>
    obtain ⟨_, _, tag, _, rfl⟩ | ⟨_, _, _, _, h, _⟩ | ⟨_, _, _, _, h, _⟩ := ofSample_cases read
    · exact encodableNames_primitive tag
    · cases h
    · cases h
  | array items ih =>
    rw [Sample.ofJson, Sample.ofItems_eq_map] at read
    obtain ⟨s, element, whole, readElement, rfl⟩ := ofSample_list_eq_ok read
    obtain ⟨j, rfl, rfl⟩ := List.map_eq_singleton_iff.1 whole
    have here : j ∈ [j] := List.mem_singleton_self j
    have inner : EncodableNames element := ih j here (h.item here) readElement
    exact inner
  | object members ih =>
    rw [Sample.ofJson, ofSample] at read
    obtain ⟨fields, readFields, rfl⟩ := map_eq_ok_iff.1 read
    have found := ofEntrySamples_eq_ok_iff.1 readFields
    rw [Sample.ofMembers_eq_map, List.forall₂_map_left_iff] at found
    refine encodableNames_object.2 fun f hf => ?_
    obtain ⟨m, hm, name, read⟩ := exists_of_mem_right found hf
    have name : m.1 = f.1 := Option.some.inj name
    exact ⟨name ▸ h.name hm, ih m hm (h.member hm) read⟩

end SampleTypes
