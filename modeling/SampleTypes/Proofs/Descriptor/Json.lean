import SampleTypes.Descriptor.Shape
import SampleTypes.Proofs.Descriptor.Basic

/-!
# Types and their JSON forms

Writing a type as JSON merges the names that its objects repeat, and nothing else: reading the
JSON form back gives the merged type.

## Main results

* `Descriptor.toJson_object` — the JSON form of an object type
* `Descriptor.toJson_merged` — merging first makes no difference
* `Descriptor.ofSample_toJson` — what reading the JSON form gives
* `Descriptor.toJson_inj` — types with distinct names have different JSON forms
-/

namespace SampleTypes

namespace Descriptor

open Outline (settled)

/-! ## Writing -/

theorem eq_ok_settled {α : Type} (x : Except Empty α) : x = .ok (settled x) := by
  cases x with
  | ok a => rfl
  | error e => exact e.elim

theorem toJson?_eq (d : Descriptor) : Outline.toJson? d = .ok d.toJson := eq_ok_settled _

theorem fieldsToJson?_eq (fields : List (Text × Descriptor)) :
    Outline.fieldsToJson? fields = .ok (fields.map fun f => (f.1, f.2.toJson)) := by
  induction fields with
  | nil => rfl
  | cons f rest ih =>
    rw [Outline.fieldsToJson?, toJson?_eq, ih]
    rfl

theorem toJson_primitive (tag : Tag) : toJson (.primitive tag) = .text tag.text := rfl

theorem toJson_array (element : Descriptor) :
    toJson (.array element) = .array [element.toJson] := by
  rw [toJson, Outline.toJson?, toJson?_eq]
  rfl

theorem toJson_object (fields : List (Text × Descriptor)) :
    toJson (.object fields) = .object (Entries.merged (fields.map fun f => (f.1, f.2.toJson))) := by
  rw [toJson, Outline.toJson?, fieldsToJson?_eq, ← Entries.ofPairs_eq_merged]
  rfl

/-- The JSON form of an object type that repeats no name has a member for every field. -/
theorem toJson_object_of_nodup {fields : List (Text × Descriptor)}
    (nodup : (Entries.names fields).Nodup) :
    toJson (.object fields) = .object (fields.map fun f => (f.1, f.2.toJson)) := by
  rw [toJson_object, Entries.merged_eq_self (by rwa [Entries.names_map])]

theorem toJson_merged (d : Descriptor) : toJson (Outline.merged d) = d.toJson := by
  induction d with
  | primitive tag => rfl
  | array element ih => rw [Outline.merged, toJson_array, ih, toJson_array]
  | object fields ih =>
    have same : fields.map (fun f => (f.1, toJson f.2.merged)) =
        fields.map fun f => (f.1, toJson f.2) :=
      List.map_congr_left fun f hf => by rw [ih f hf]
    rw [Outline.merged_object, toJson_object_of_nodup (Entries.nodup_names_merged _),
      ← Entries.merged_map, List.map_map, toJson_object]
    exact congrArg (fun members => Json.object (Entries.merged members)) same

/-! ## Reading -/

theorem ofText?_text (tag : Tag) : Tag.ofText? tag.text = some tag := by
  cases tag <;> decide

theorem ofEntrySamples_eq {fields : List (Text × Descriptor)}
    (h : ∀ f ∈ fields, ofSample (Sample.ofJson f.2.toJson) = .ok f.2) :
    ofEntrySamples (Sample.ofMembers (fields.map fun f => (f.1, f.2.toJson))) = .ok fields := by
  induction fields with
  | nil => rfl
  | cons f rest ih =>
    rw [List.map_cons, Sample.ofMembers, ofEntrySamples]
    simp only [Sample.ofText, Sample.content?, h f (List.mem_cons_self ..),
      ih fun g hg => h g (List.mem_cons_of_mem _ hg)]
    rfl

theorem ofSample_toJson_of_distinct {d : Descriptor} (h : d.Distinct) :
    ofSample (Sample.ofJson d.toJson) = .ok d := by
  induction d with
  | primitive tag =>
    rw [toJson_primitive, Sample.ofJson, Sample.ofText, ofSample, ofText?_text]
  | array element ih =>
    rw [toJson_array, Sample.ofJson, Sample.list, Sample.ofItems, Sample.ofItems, ofSample,
      ih h.element]
    rfl
  | object fields ih =>
    rw [toJson_object_of_nodup h.nodup, Sample.ofJson, ofSample,
      ofEntrySamples_eq fun f hf => ih f hf (h.field hf)]
    rfl

/-- Reading the JSON form of a type gives the type with its repeated names merged. -/
theorem ofSample_toJson (d : Descriptor) :
    ofSample (Sample.ofJson d.toJson) = .ok (Outline.merged d) := by
  rw [← toJson_merged, ofSample_toJson_of_distinct (Outline.merged_distinct d)]

theorem toJson_inj {a b : Descriptor} (ha : a.Distinct) (hb : b.Distinct) :
    a.toJson = b.toJson ↔ a = b := by
  -- Equal JSON forms are read as equal types.
  refine ⟨fun h => ?_, congrArg toJson⟩
  have hread := ofSample_toJson_of_distinct ha
  rw [h, ofSample_toJson_of_distinct hb] at hread
  exact (Except.ok.inj hread).symm

end Descriptor

end SampleTypes
