import SampleTypes.Descriptor.Basic
import SampleTypes.Proofs.Entries

/-!
# Names in types

An object type that is built from fields may name a field twice. Merging, at every depth, gives
each name its first place and its last type; sorting, at every depth, puts the fields in the order
of their names. Both leave a type as it is if it is merged, or sorted, already.

## Main definitions

* `Outline.Distinct` — no object names a field twice
* `Outline.merged` — repeated names merged at every depth
* `Outline.sorted` — fields in the order of their names at every depth

## Main results

* `Outline.merged_distinct`, `Outline.merged_eq_self` — merging makes names distinct, and changes
  no type whose names are
* `Outline.Distinct.sorted` — sorting keeps names distinct
-/

namespace SampleTypes

namespace Outline

variable {φ : Type}

/-- Induction over the parts of a type. -/
@[elab_as_elim, induction_eliminator]
theorem byParts {motive : Outline φ → Prop} (primitive : ∀ tag, motive (.primitive tag))
    (array : ∀ element, motive element → motive (.array element))
    (object : ∀ fields, (∀ f ∈ fields, motive f.2) → motive (.object fields))
    (stray : ∀ value, motive (.stray value)) : ∀ o, motive o := by
  refine @Outline.rec φ motive (fun fields => ∀ f ∈ fields, motive f.2) (fun f => motive f.2)
    primitive array object stray ?_ ?_ ?_
  · simp
  · intro head tail hhead htail f hf
    rcases List.mem_cons.1 hf with rfl | hf
    · exact hhead
    · exact htail f hf
  · exact fun _ _ h => h

/-! ## Distinct names -/

/-- No object names a field twice, at any depth. -/
inductive Distinct : Outline φ → Prop
  | primitive (tag : Tag) : Distinct (.primitive tag)
  | array {element : Outline φ} (h : Distinct element) : Distinct (.array element)
  | object {fields : List (Text × Outline φ)} (nodup : (Entries.names fields).Nodup)
      (h : ∀ f ∈ fields, Distinct f.2) : Distinct (.object fields)
  | stray (value : φ) : Distinct (.stray value)

theorem Distinct.element {o : Outline φ} (h : Distinct (.array o)) : Distinct o := by
  cases h with
  | array h => exact h

theorem Distinct.nodup {fields : List (Text × Outline φ)} (h : Distinct (.object fields)) :
    (Entries.names fields).Nodup := by
  cases h with
  | object nodup _ => exact nodup

theorem Distinct.field {fields : List (Text × Outline φ)} (h : Distinct (.object fields))
    {f : Text × Outline φ} (hf : f ∈ fields) : Distinct f.2 := by
  cases h with
  | object _ h => exact h f hf

/-! ## Merging -/

mutual

/-- Repeated names merged at every depth: each at its first place, with its last type. -/
def merged : Outline φ → Outline φ
  | .primitive tag => .primitive tag
  | .array element => .array (merged element)
  | .object fields => .object (Entries.merged (mergedFields fields))
  | .stray value => .stray value
termination_by structural o => o

/-- Merging within each field. -/
def mergedFields : List (Text × Outline φ) → List (Text × Outline φ)
  | [] => []
  | (name, o) :: rest => (name, merged o) :: mergedFields rest
termination_by structural fields => fields

end

theorem mergedFields_eq_map (fields : List (Text × Outline φ)) :
    mergedFields fields = fields.map fun f => (f.1, f.2.merged) := by
  induction fields with
  | nil => rfl
  | cons f rest ih => rw [mergedFields, ih, List.map_cons]

theorem merged_object (fields : List (Text × Outline φ)) :
    merged (.object fields) = .object (Entries.merged (fields.map fun f => (f.1, f.2.merged))) := by
  rw [merged, mergedFields_eq_map]

theorem merged_distinct (o : Outline φ) : o.merged.Distinct := by
  induction o with
  | primitive tag => exact .primitive tag
  | array element ih => exact .array ih
  | object fields ih =>
    rw [merged_object]
    apply Distinct.object (Entries.nodup_names_merged _)
    intro f hf
    obtain ⟨g, hg, rfl⟩ := List.mem_map.1 (Entries.mem_of_mem_merged hf)
    exact ih g hg
  | stray value => exact .stray value

theorem merged_eq_self {o : Outline φ} (h : o.Distinct) : o.merged = o := by
  induction o with
  | primitive tag => rfl
  | array element ih => rw [merged, ih h.element]
  | object fields ih =>
    have unchanged : (fields.map fun f => (f.1, f.2.merged)) = fields := by
      conv_rhs => rw [← List.map_id fields]
      exact List.map_congr_left fun f hf => by rw [ih f hf (h.field hf)]; rfl
    rw [merged_object, unchanged, Entries.merged_eq_self h.nodup]
  | stray value => rfl

/-! ## Sorting -/

mutual

/-- The fields of every object in the order of their names. -/
def sorted : Outline φ → Outline φ
  | .primitive tag => .primitive tag
  | .array element => .array (sorted element)
  | .object fields => .object (Entries.sort (sortedFields fields))
  | .stray value => .stray value
termination_by structural o => o

/-- Sorting within each field. -/
def sortedFields : List (Text × Outline φ) → List (Text × Outline φ)
  | [] => []
  | (name, o) :: rest => (name, sorted o) :: sortedFields rest
termination_by structural fields => fields

end

theorem sortedFields_eq_map (fields : List (Text × Outline φ)) :
    sortedFields fields = fields.map fun f => (f.1, f.2.sorted) := by
  induction fields with
  | nil => rfl
  | cons f rest ih => rw [sortedFields, ih, List.map_cons]

theorem sorted_object (fields : List (Text × Outline φ)) :
    sorted (.object fields) = .object (Entries.sort (fields.map fun f => (f.1, f.2.sorted))) := by
  rw [sorted, sortedFields_eq_map]

theorem Distinct.sorted {o : Outline φ} (h : o.Distinct) : o.sorted.Distinct := by
  induction o with
  | primitive tag => exact h
  | array element ih => exact .array (ih h.element)
  | object fields ih =>
    have perm := Entries.sort_perm (fields.map fun f => (f.1, f.2.sorted))
    rw [sorted_object]
    apply Distinct.object
    · have nodup := h.nodup
      rw [← Entries.names_map Outline.sorted fields] at nodup
      exact (perm.map Prod.fst).nodup_iff.2 nodup
    · intro f hf
      obtain ⟨g, hg, rfl⟩ := List.mem_map.1 (perm.mem_iff.1 hf)
      exact ih g hg (h.field hg)
  | stray value => exact h

end Outline

/-- Induction over the parts of a type that has no room for stray values. -/
@[elab_as_elim, induction_eliminator]
theorem Descriptor.byParts {motive : Descriptor → Prop}
    (primitive : ∀ tag, motive (.primitive tag))
    (array : ∀ element, motive element → motive (.array element))
    (object : ∀ fields, (∀ f ∈ fields, motive f.2) → motive (.object fields)) :
    ∀ d : Descriptor, motive d :=
  Outline.byParts primitive array object fun value => value.elim

end SampleTypes
