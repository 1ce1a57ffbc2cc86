import SampleTypes.Proofs.Declaration.Basic
import SampleTypes.Proofs.DepthFirst
import SampleTypes.Proofs.Descriptor.Shape
import SampleTypes.Proofs.Stages

/-!
# Stray values

An outline is a descriptor, or some value that is none has strayed into it. The JSON form of an
outline, the key of its shape and its text at a level all come about in the same way: the outline
is gone through in depth-first order until a stray value is met, and if there is none, it is the
descriptor that is written. So all three are stopped by the same outlines, and by the same value in
each. Whether a name is repeated makes no difference, because the type of every field is looked at.

## Main definitions

* `Outline.StrayAt` — a stray value at a place
* `Outline.descriptor?` — the descriptor that an outline is, or the first stray value
* `Descriptor.widen` — a descriptor as an outline with room for stray values

## Main results

* `Outline.toJson?_eq_map`, `Outline.shapeKey?_eq_map`, `Outline.format?_eq_map` — what comes of an
  outline is what comes of the descriptor that it is
* `Outline.firstFind_of_descriptor?_error` — the value that stops is the first in depth-first order
* `Outline.strays_stop_alike` — which outlines are refused, and with what
-/

namespace SampleTypes

namespace Outline

variable {φ : Type}

/-- A stray value at a place: the place is given by the numbers of the fields that lead to it, and
the element of an array counts as its only field. -/
inductive StrayAt : Outline φ → List Nat → φ → Prop
  | here (value : φ) : StrayAt (.stray value) [] value
  | element {element : Outline φ} {place : List Nat} {value : φ} (h : StrayAt element place value) :
      StrayAt (.array element) (0 :: place) value
  | field {fields : List (Text × Outline φ)} {i : Nat} {f : Text × Outline φ} {place : List Nat}
      {value : φ} (mem : fields[i]? = some f) (h : StrayAt f.2 place value) :
      StrayAt (.object fields) (i :: place) value

mutual

/-- The descriptor that an outline is, or the first stray value. -/
def descriptor? : Outline φ → Except φ Descriptor
  | .primitive tag => .ok (.primitive tag)
  | .array element => (descriptor? element).map .array
  | .object fields => (fieldDescriptors? fields).map .object
  | .stray value => .error value
termination_by structural o => o

/-- The fields with the descriptors that their types are. -/
def fieldDescriptors? : List (Text × Outline φ) → Except φ (List (Text × Descriptor))
  | [] => .ok []
  | (name, o) :: rest => do
    let d ← descriptor? o
    let fields ← fieldDescriptors? rest
    return (name, d) :: fields
termination_by structural fields => fields

end

/-- The descriptor that the type of a field is, with the name of the field. -/
def fieldDescriptor? (f : Text × Outline φ) : Except φ (Text × Descriptor) :=
  f.2.descriptor?.map (Prod.mk f.1)

/-! ## Fields one by one -/

theorem fieldDescriptors?_eq_mapM (fields : List (Text × Outline φ)) :
    fieldDescriptors? fields = fields.mapM fieldDescriptor? := by
  induction fields with
  | nil => rfl
  | cons f rest ih =>
    rw [fieldDescriptors?, List.mapM_cons, fieldDescriptor?, ← ih]
    cases f.2.descriptor? <;> rfl

theorem fieldsToJson?_eq_mapM (fields : List (Text × Outline φ)) :
    fieldsToJson? fields = fields.mapM fun f => f.2.toJson?.map (Prod.mk f.1) := by
  induction fields with
  | nil => rfl
  | cons f rest ih =>
    rw [fieldsToJson?, List.mapM_cons, ← ih]
    cases f.2.toJson? <;> rfl

theorem formatFields?_eq_mapM (level : Int) (fields : List (Text × Outline φ)) :
    formatFields? level fields = fields.mapM fun f =>
      (f.2.format? (level + 1)).map (Declaration.fieldLine level f.1) := by
  induction fields with
  | nil => rfl
  | cons f rest ih =>
    rw [formatFields?, List.mapM_cons, ← ih]
    cases f.2.format? (level + 1) <;> rfl

/-! ## What comes of an outline -/

/-- The JSON form of an outline is that of the descriptor. -/
theorem toJson?_eq_map (o : Outline φ) : o.toJson? = o.descriptor?.map Descriptor.toJson := by
  induction o with
  | primitive tag => rfl
  | array element ih =>
    rw [toJson?, descriptor?, ih]
    cases element.descriptor? with
    | error x => rfl
    | ok d => exact congrArg Except.ok (Descriptor.toJson_array d).symm
  | object fields ih =>
    have each : ∀ f ∈ fields, f.2.toJson?.map (Prod.mk f.1) =
        (fieldDescriptor? f).map fun g => (g.1, g.2.toJson) := by
      intro f hf
      rw [ih f hf, fieldDescriptor?]
      cases f.2.descriptor? <;> rfl
    rw [toJson?, descriptor?, fieldsToJson?_eq_mapM, mapM_eq_map each, fieldDescriptors?_eq_mapM]
    cases fields.mapM fieldDescriptor? with
    | error x => rfl
    | ok typed =>
      simp only [Except.map, Descriptor.toJson_object, Entries.ofPairs_eq_merged]
  | stray value => rfl

/-- The key of the shape of an outline is that of the descriptor. -/
theorem shapeKey?_eq_map (o : Outline φ) : o.shapeKey? = o.descriptor?.map Descriptor.shapeKey := by
  rw [shapeKey?, toJson?_eq_map]
  cases o.descriptor? with
  | error x => rfl
  | ok d => exact congrArg Except.ok (Descriptor.shapeKey_eq d).symm

/-- The text of an outline at a level is that of the descriptor. -/
theorem format?_eq_map (level : Int) (o : Outline φ) :
    o.format? level = o.descriptor?.map (Descriptor.format level) := by
  induction o generalizing level with
  | primitive tag => rfl
  | array element ih =>
    rw [format?, descriptor?, ih]
    cases element.descriptor? with
    | error x => rfl
    | ok d => exact congrArg Except.ok (Descriptor.format_array level d).symm
  | object fields ih =>
    have each : ∀ f ∈ fields,
        (f.2.format? (level + 1)).map (Declaration.fieldLine level f.1) =
          (fieldDescriptor? f).map fun g =>
            Declaration.fieldLine level g.1 (g.2.format (level + 1)) := by
      intro f hf
      rw [ih f hf, fieldDescriptor?]
      cases f.2.descriptor? <;> rfl
    rw [format?, descriptor?, formatFields?_eq_mapM, mapM_eq_map each, fieldDescriptors?_eq_mapM]
    cases fields.mapM fieldDescriptor? with
    | error x => rfl
    | ok typed => exact congrArg Except.ok (Descriptor.format_object level typed).symm
  | stray value => rfl

/-! ## The first stray value -/

/-- An outline with a stray value is no descriptor. -/
theorem StrayAt.descriptor?_ne_ok {o : Outline φ} {place : List Nat} {value : φ}
    (h : o.StrayAt place value) (d : Descriptor) : o.descriptor? ≠ .ok d := by
  induction h generalizing d with
  | here value => exact nofun
  | element _ ih =>
    rw [descriptor?, Ne, map_eq_ok_iff]
    rintro ⟨e, he, -⟩
    exact ih e he
  | field mem _ ih =>
    rw [descriptor?, Ne, map_eq_ok_iff, fieldDescriptors?_eq_mapM]
    rintro ⟨typed, all, -⟩
    obtain ⟨g, -, hg⟩ := exists_of_mem_right (mapM_eq_ok_iff.1 all).flip (List.mem_of_getElem? mem)
    obtain ⟨e, he, -⟩ := map_eq_ok_iff.1 hg
    exact ih e he

/-- The value that stops is the first in depth-first order. -/
theorem firstFind_of_descriptor?_error {o : Outline φ} {value : φ}
    (h : o.descriptor? = .error value) : ∃ place, FirstFind (· < ·) o.StrayAt place value := by
  induction o with
  | primitive tag => cases h
  | array element ih =>
    rw [descriptor?, map_eq_error_iff] at h
    obtain ⟨place, first⟩ := ih h
    refine ⟨0 :: place, first.step (.element first.here) fun place' value' stray => ?_⟩
    cases stray with
    | element inner => exact ⟨_, _, rfl, .inr ⟨rfl, inner⟩⟩
  | object fields ih =>
    rw [descriptor?, map_eq_error_iff, fieldDescriptors?_eq_mapM] at h
    obtain ⟨i, f, mem, failed, before⟩ := exists_of_mapM_error h
    obtain ⟨place, first⟩ := ih f (List.mem_of_getElem? mem) (map_eq_error_iff.1 failed)
    refine ⟨i :: place, first.step (.field mem first.here) fun place' value' stray => ?_⟩
    -- A stray value in an earlier field would have stopped before.
    cases stray with
    | @field _ j f' rest _ mem' inner =>
      refine ⟨j, rest, rfl, ?_⟩
      rcases Nat.lt_trichotomy j i with earlier | rfl | later
      · obtain ⟨g, typed⟩ := before j f' earlier mem'
        obtain ⟨d, hd, -⟩ := map_eq_ok_iff.1 typed
        exact absurd hd (inner.descriptor?_ne_ok d)
      · cases mem.symm.trans mem'
        exact .inr ⟨rfl, inner⟩
      · exact .inl later
  | stray value' =>
    cases h
    exact ⟨[], .root (.here value)⟩

/-! ## Descriptors as outlines -/

end Outline

namespace Descriptor

open Outline (descriptor? fieldDescriptors?)

variable {φ : Type}

mutual

/-- A descriptor as an outline with room for stray values. -/
def widen : Descriptor → Outline φ
  | .primitive tag => .primitive tag
  | .array element => .array (widen element)
  | .object fields => .object (widenFields fields)
  | .stray value => nomatch value
termination_by structural d => d

/-- Fields of descriptors as fields of outlines. -/
def widenFields : List (Text × Descriptor) → List (Text × Outline φ)
  | [] => []
  | (name, d) :: rest => (name, widen d) :: widenFields rest
termination_by structural fields => fields

end

theorem fieldDescriptors?_widenFields {fields : List (Text × Descriptor)}
    (h : ∀ f ∈ fields, descriptor? (f.2.widen : Outline φ) = .ok f.2) :
    fieldDescriptors? (widenFields fields : List (Text × Outline φ)) = .ok fields := by
  induction fields with
  | nil => rfl
  | cons f rest ih =>
    obtain ⟨first, others⟩ := List.forall_mem_cons.1 h
    rw [widenFields, fieldDescriptors?, first, ih others]
    rfl

/-- A descriptor has no stray value in it. -/
theorem descriptor?_widen (d : Descriptor) : descriptor? (d.widen : Outline φ) = .ok d := by
  induction d with
  | primitive tag => rfl
  | array element ih =>
    rw [widen, descriptor?, ih]
    rfl
  | object fields ih =>
    rw [widen, descriptor?, fieldDescriptors?_widenFields ih]
    rfl

end Descriptor

namespace Outline

/-- Which outlines are refused, and with what. An outline without stray values has a JSON form, a
key of its shape, and a text at every level. Any other has none of the three, and each is refused
with the type of the first stray value in depth-first order, in which all fields come in their order
and a repeated name makes no difference. What inference finds, what is read and what commands handle
are descriptors, and these give a result even where there is room for stray values. -/
theorem strays_stop_alike (o : Outline Sample) :
    ((∀ place s, ¬ o.StrayAt place s) →
      (∃ j, refusing .json o.toJson? = .ok j) ∧ (∃ t, refusing .json o.shapeKey? = .ok t) ∧
        ∀ level, ∃ t, refusing .declaration (o.format? level) = .ok t) ∧
    ((∃ place s, o.StrayAt place s) →
      ∃ place s, FirstFind (· < ·) o.StrayAt place s ∧
        refusing .json o.toJson? = .error (.stray .json s.typeName) ∧
        refusing .json o.shapeKey? = .error (.stray .json s.typeName) ∧
        ∀ level, refusing .declaration (o.format? level) =
          .error (.stray .declaration s.typeName)) ∧
    ∀ (d : Descriptor) (level : Int),
      refusing .json (d.widen : Outline Sample).toJson? = .ok d.toJson ∧
      refusing .json (d.widen : Outline Sample).shapeKey? = .ok d.shapeKey ∧
      refusing .declaration ((d.widen : Outline Sample).format? level) = .ok (d.format level) := by
  refine ⟨fun none => ?_, fun ⟨place, s, found⟩ => ?_, fun d level => ?_⟩
  · cases h : o.descriptor? with
    | error s =>
      obtain ⟨place, first⟩ := firstFind_of_descriptor?_error h
      exact absurd first.here (none place s)
    | ok d =>
      simp only [toJson?_eq_map, shapeKey?_eq_map, format?_eq_map, h]
      exact ⟨⟨_, rfl⟩, ⟨_, rfl⟩, fun level => ⟨_, rfl⟩⟩
  · cases h : o.descriptor? with
    | ok d => exact absurd h (found.descriptor?_ne_ok d)
    | error t =>
      obtain ⟨place, first⟩ := firstFind_of_descriptor?_error h
      refine ⟨place, t, first, ?_⟩
      simp only [toJson?_eq_map, shapeKey?_eq_map, format?_eq_map, h]
      exact ⟨rfl, rfl, fun level => rfl⟩
  · simp only [toJson?_eq_map, shapeKey?_eq_map, format?_eq_map, Descriptor.descriptor?_widen]
    exact ⟨rfl, rfl, rfl⟩

/-- A stray value stops although a later field of the same name would take its place. -/
example (a : Text) (s : Sample) :
    toJson? (.object [(a, .array (.stray s)), (a, .primitive .string)]) = .error s := rfl

end Outline

end SampleTypes
