import SampleTypes.Proofs.Inference.Containers
import SampleTypes.Proofs.Json.Distinct

/-!
# The types of documents

A document has a type, whatever it holds. The types of documents have a grammar: strings, numbers,
truth values and null, arrays of types of items, and objects that name no field twice. A type of
items is the type of a document, or it is unknown for want of items, or mixed. Of every type of the
grammar there is a document: an array of one item has the type of that item for its items, and only
an empty array and one of different items need something else.

## Main definitions

* `Descriptor.OfDocument`, `Descriptor.OfItems` — the grammar

## Main results

* `exists_infer_ofJson` — a document has a type of the grammar
* `exists_document` — a type of the grammar has a document
* `infer_ofJson_iff_ofDocument` — the types of documents are those of the grammar
-/

namespace SampleTypes

namespace Descriptor

mutual

/-- The types of documents. -/
inductive OfDocument : Descriptor → Prop
  | string : OfDocument (.primitive .string)
  | number : OfDocument (.primitive .number)
  | boolean : OfDocument (.primitive .boolean)
  | null : OfDocument (.primitive .null)
  | array {element : Descriptor} (h : OfItems element) : OfDocument (.array element)
  | object {fields : List (Text × Descriptor)} (nodup : (Entries.names fields).Nodup)
      (h : ∀ f ∈ fields, OfDocument f.2) : OfDocument (.object fields)

/-- The types of the items of arrays in documents. -/
inductive OfItems : Descriptor → Prop
  | known {d : Descriptor} (h : OfDocument d) : OfItems d
  | unknown : OfItems (.primitive .unknown)
  | mixed : OfItems (.primitive .mixed)

end

theorem ofDocument_ofItems {types : List Descriptor} (h : ∀ d ∈ types, OfDocument d) :
    OfDocument (ofItems types) := by
  cases types with
  | nil => exact .array .unknown
  | cons d rest =>
    apply OfDocument.array
    split_ifs
    · exact .known (h d (List.mem_cons_self ..))
    · exact .mixed

end Descriptor

open Descriptor (OfDocument OfItems)

/-- A document has a type, and it is one of the grammar. -/
theorem exists_infer_ofJson (j : Json) : ∃ d, infer (Sample.ofJson j) = .ok d ∧ OfDocument d := by
  induction j with
  | null => exact ⟨_, rfl, .null⟩
  | bool b => exact ⟨_, rfl, .boolean⟩
  | int n => exact ⟨_, rfl, .number⟩
  | float x => exact ⟨_, rfl, .number⟩
  | text t => exact ⟨_, rfl, .string⟩
  | array items ih =>
    obtain ⟨types, found⟩ := exists_forall₂ ih
    have inferred : List.Forall₂ (fun s d => infer s = .ok d) (Sample.ofItems items) types := by
      rw [Sample.ofItems_eq_map, List.forall₂_map_left_iff]
      exact found.imp fun _ _ h => h.1
    refine ⟨_, (infer_sequence_iff_of_filled (by decide) (by decide) (fun _ => by decide) _).2
      ⟨types, inferred, rfl⟩, ?_⟩
    apply Descriptor.ofDocument_ofItems
    intro d hd
    obtain ⟨_, _, h⟩ := exists_of_mem_right found hd
    exact h.2
  | object members ih =>
    have typed : ∀ m ∈ members, ∃ f : Text × Descriptor,
        Typed (Sample.ofText m.1, Sample.ofJson m.2) f ∧ OfDocument f.2 := by
      intro m hm
      obtain ⟨d, inferred, h⟩ := ih m hm
      exact ⟨(m.1, d), ⟨rfl, inferred⟩, h⟩
    obtain ⟨fields, found⟩ := exists_forall₂ typed
    have inferred : List.Forall₂ Typed (Sample.ofMembers members) fields := by
      rw [Sample.ofMembers_eq_map, List.forall₂_map_left_iff]
      exact found.imp fun _ _ h => h.1
    refine ⟨_, (infer_mapping_iff (by decide) _ _).2 ⟨fields, inferred, rfl⟩, ?_⟩
    apply OfDocument.object (Entries.nodup_names_merged fields)
    intro f hf
    obtain ⟨_, _, h⟩ := exists_of_mem_right found (Entries.mem_of_mem_merged hf)
    exact h.2

/-! ## A document of every type -/

/-- An array of one item has the type of that item for its items. -/
theorem infer_array_singleton {j : Json} {d : Descriptor}
    (h : infer (Sample.ofJson j) = .ok d) : infer (Sample.ofJson (.array [j])) = .ok (.array d) :=
  (infer_sequence_iff_of_filled (by decide) (by decide) (fun _ => by decide) _).2
    ⟨[d], .cons h .nil, rfl⟩

/-- An object has the fields that its members have, if they repeat no name. -/
theorem infer_object_of_members {members : List (Text × Json)} {fields : List (Text × Descriptor)}
    (nodup : (Entries.names fields).Nodup)
    (h : Entries.Related (fun d j => infer (Sample.ofJson j) = .ok d) fields members) :
    infer (Sample.ofJson (.object members)) = .ok (.object fields) := by
  have inferred : List.Forall₂ Typed (Sample.ofMembers members) fields := by
    rw [Sample.ofMembers_eq_map, List.forall₂_map_left_iff]
    exact h.flip
  refine (infer_mapping_iff (by decide) _ _).2 ⟨fields, inferred, ?_⟩
  rw [Entries.merged_eq_self nodup]

/-- A type of the grammar has a document. -/
theorem exists_document {d : Descriptor} (h : OfDocument d) :
    ∃ j : Json, j.Distinct ∧ infer (Sample.ofJson j) = .ok d := by
  induction d with
  | primitive tag =>
    cases h with
    | string => exact ⟨.text [], .text _, rfl⟩
    | number => exact ⟨.int 0, .int _, rfl⟩
    | boolean => exact ⟨.bool true, .bool _, rfl⟩
    | null => exact ⟨.null, .null, rfl⟩
  | array element ih =>
    cases h with
    | array items =>
      cases items with
      | known h =>
        obtain ⟨j, distinct, inferred⟩ := ih h
        exact ⟨.array [j], .array (List.forall_mem_singleton.2 distinct),
          infer_array_singleton inferred⟩
      | unknown => exact ⟨.array [], .array nofun, rfl⟩
      | mixed =>
        refine ⟨.array [.null, .bool true], .array ?_, rfl⟩
        exact List.forall_mem_cons.2 ⟨.null, List.forall_mem_singleton.2 (.bool _)⟩
  | object fields ih =>
    cases h with
    | object nodup h =>
      have documents : ∀ f ∈ fields, ∃ m : Text × Json,
          f.1 = m.1 ∧ m.2.Distinct ∧ infer (Sample.ofJson m.2) = .ok f.2 := by
        intro f hf
        obtain ⟨j, distinct, inferred⟩ := ih f hf (h f hf)
        exact ⟨(f.1, j), rfl, distinct, inferred⟩
      obtain ⟨members, found⟩ := exists_forall₂ documents
      have related : Entries.Related (fun d j => infer (Sample.ofJson j) = .ok d) fields members :=
        found.imp fun _ _ h => ⟨h.1, h.2.2⟩
      refine ⟨.object members, .object (related.names_eq ▸ nodup) fun m hm => ?_,
        infer_object_of_members nodup related⟩
      obtain ⟨_, _, h⟩ := exists_of_mem_right found hm
      exact h.2.1

/-- Every document has a type of the grammar, and every type of the grammar is that of a document
whose objects repeat no name. -/
theorem infer_ofJson_iff_ofDocument :
    (∀ j : Json, ∃ d, infer (Sample.ofJson j) = .ok d ∧ OfDocument d) ∧
      ∀ d, OfDocument d ↔ ∃ j : Json, j.Distinct ∧ infer (Sample.ofJson j) = .ok d := by
  refine ⟨exists_infer_ofJson, fun d => ⟨exists_document, ?_⟩⟩
  rintro ⟨j, -, inferred⟩
  obtain ⟨e, inferred', h⟩ := exists_infer_ofJson j
  obtain rfl : e = d := Except.ok.inj (inferred'.symm.trans inferred)
  exact h

end SampleTypes
