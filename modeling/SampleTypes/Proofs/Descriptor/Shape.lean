import SampleTypes.Proofs.Descriptor.Json
import SampleTypes.Proofs.Descriptor.Reordering
import SampleTypes.Proofs.Json.Sorted

/-!
# Shapes tell types apart

The key of a shape is a text, and comparing keys compares types: two types have one key exactly if
their fields, after repeated names are merged, differ in order only. The one half holds because
sorting undoes every reordering; the other because the compact form of a JSON value is read back,
and so is the type in it.

## Main results

* `Descriptor.shapeKey_eq_iff` — what it means that two keys are the same
* `Descriptor.sameShape_iff_reordered` — what it means that two types have the same shape
-/

namespace SampleTypes.Descriptor

theorem kept_toJson (d : Descriptor) : Json.Kept false d.toJson := by
  have writable (t : Text) : Json.Writable false t := fun h => absurd h (by decide)
  induction d with
  | primitive tag => exact .text (writable _)
  | array element ih =>
    rw [toJson_array]
    exact .array (by simpa using ih)
  | object fields ih =>
    rw [toJson_object]
    apply Json.Kept.object (Entries.nodup_names_merged _) fun m _ => writable m.1
    intro m hm
    obtain ⟨f, hf, rfl⟩ := List.mem_map.1 (Entries.mem_of_mem_merged hm)
    exact ih f hf

theorem toJson_sorted {d : Descriptor} (h : d.Distinct) :
    toJson (Outline.sorted d) = d.toJson.sorted := by
  induction d with
  | primitive tag => rfl
  | array element ih =>
    rw [Outline.sorted, toJson_array, ih h.element, toJson_array, Json.sorted_array]
    rfl
  | object fields ih =>
    have same : fields.map (fun f => (f.1, toJson f.2.sorted)) =
        fields.map fun f => (f.1, (toJson f.2).sorted) :=
      List.map_congr_left fun f hf => by rw [ih f hf (h.field hf)]
    have nodup := h.sorted.nodup
    rw [Outline.sortedFields_eq_map] at nodup
    rw [Outline.sorted_object, toJson_object_of_nodup nodup, ← Entries.sort_map, List.map_map,
      toJson_object_of_nodup h.nodup, Json.sorted_object, List.map_map]
    exact congrArg (fun members => Json.object (Entries.sort members)) same

theorem shapeKey_eq (d : Descriptor) : d.shapeKey = d.toJson.sorted.compact := by
  rw [shapeKey, Outline.shapeKey?, toJson?_eq]
  rfl

/-- The key of a shape is a compact form, from which the sorted JSON value is read back. -/
theorem shapeKey_eq_iff_sorted {a b : Descriptor} :
    a.shapeKey = b.shapeKey ↔ a.toJson.sorted = b.toJson.sorted := by
  rw [shapeKey_eq, shapeKey_eq, Json.compact_inj (kept_toJson a).sorted (kept_toJson b).sorted]

/-- Keys are the same if the types are the same up to the order of fields. -/
theorem shapeKey_eq_iff (a b : Descriptor) :
    a.shapeKey = b.shapeKey ↔ Outline.Reordered (Outline.merged a) (Outline.merged b) := by
  have distinctA := Outline.merged_distinct a
  have distinctB := Outline.merged_distinct b
  -- From texts to JSON values to types: each form is read back, so none loses anything.
  calc a.shapeKey = b.shapeKey
      ↔ a.toJson.sorted = b.toJson.sorted := shapeKey_eq_iff_sorted
    _ ↔ toJson (Outline.sorted (Outline.merged a)) =
        toJson (Outline.sorted (Outline.merged b)) := by
      rw [toJson_sorted distinctA, toJson_sorted distinctB, toJson_merged, toJson_merged]
    _ ↔ Outline.sorted (Outline.merged a) = Outline.sorted (Outline.merged b) :=
      toJson_inj distinctA.sorted distinctB.sorted
    _ ↔ Outline.Reordered (Outline.merged a) (Outline.merged b) :=
      (Outline.reordered_iff distinctA).symm

theorem shapeKey_eq_iff_of_distinct {a b : Descriptor} (ha : Outline.Distinct a)
    (hb : Outline.Distinct b) : a.shapeKey = b.shapeKey ↔ Outline.Reordered a b := by
  rw [shapeKey_eq_iff, Outline.merged_eq_self ha, Outline.merged_eq_self hb]

theorem sameShape_iff {a b : Descriptor} : a.sameShape b = true ↔ a.shapeKey = b.shapeKey :=
  beq_iff_eq

/-- Two types have the same shape exactly if they are the same up to the order of fields, where an
object that repeats a name counts as the one with the last type of that name. -/
theorem sameShape_iff_reordered (a b : Descriptor) :
    (a.sameShape b = true ↔ Outline.Reordered (Outline.merged a) (Outline.merged b)) ∧
      (¬ Outline.Reordered (Outline.merged a) (Outline.merged b) → a.shapeKey ≠ b.shapeKey) := by
  rw [← shapeKey_eq_iff, sameShape, beq_iff_eq]
  exact ⟨Iff.rfl, id⟩

end SampleTypes.Descriptor
