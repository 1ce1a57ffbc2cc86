import SampleTypes.Proofs.Entries
import SampleTypes.Proofs.Inference.Types

/-!
# The types of containers from their contents

A list or tuple that inference looks into has the type that its items make together, and a mapping
has a field for every text of a key, with the type of the last value under it. A container that
inference does not look into has the same type whatever it holds. Only a list or tuple that counts
as true by its nature has to hold something.

## Main results

* `infer_sequence_iff`, `infer_mapping_iff` — open containers
* `infer_sequence_of_closed`, `infer_mapping_of_closed` — all others
* `infer_tuple_iff` — a tuple has the type of a list
-/

namespace SampleTypes

namespace Sample

theorem map_snd_numbered (index : Nat) (items : List Sample) :
    (numbered index items).map Prod.snd = items := by
  induction items generalizing index with
  | nil => rfl
  | cons s rest ih => rw [numbered, List.map_cons, ih]

end Sample

theorem Nature.isOpen_iff (n : Nature) :
    n.isOpen = true ↔ n.callable = false ∧ n.promise = false ∧ n.truth ≠ some false := by
  simp [isOpen, and_assoc]

/-- A list or tuple that is barren counts as true by its nature and has no items. -/
theorem Sample.isBarren_sequence_iff {kind : SequenceKind} (hk : kind ≠ .run) {n : Nature}
    (hn : n.isOpen = true) (items : List Sample) :
    (Sample.sequence kind n items).isBarren = true ↔ n.truth = some true ∧ items = [] := by
  cases kind with
  | run => exact absurd rfl hk
  | _ => simp [isBarren, hn]

section Sequences

variable {kind : SequenceKind} {n : Nature}

theorem infer_sequence_iff (hk : kind ≠ .run) (hn : n.isOpen = true) (items : List Sample)
    (d : Descriptor) :
    infer (.sequence kind n items) = .ok d ↔ (items = [] → n.truth ≠ some true) ∧
      ∃ types, List.Forall₂ (fun s e => infer s = .ok e) items types ∧ .ofItems types = d := by
  obtain ⟨callable, promise, -⟩ := n.isOpen_iff.1 hn
  have parts : (Sample.sequence kind n items).parts = Sample.numbered 0 items := by
    cases kind with
    | run => exact absurd rfl hk
    | _ => simp [Sample.parts, hn]
  have together : (Sample.sequence kind n items).typeFromParts = .ofItems := by
    funext types
    cases kind with
    | run => exact absurd rfl hk
    | _ => simp [Sample.typeFromParts, promise]
  have passes : (Sample.sequence kind n items).stops = false ↔
      (items = [] → n.truth ≠ some true) := by
    have calls : (Sample.sequence kind n items).isOffender = false := by
      simp [Sample.isOffender, Sample.nature, callable]
    rw [Sample.stops, calls, Bool.false_or, ← Bool.not_eq_true,
      Sample.isBarren_sequence_iff hk hn, not_and']
  rw [infer_eq_ok_iff, passes, parts, together]
  refine and_congr_right fun _ => ?_
  conv_rhs => rw [← Sample.map_snd_numbered 0 items]
  simp only [List.forall₂_map_left_iff]

/-- A list or tuple that has items, or does not count as true by its nature, has the type that its
items make. -/
theorem infer_sequence_iff_of_filled (hk : kind ≠ .run) (hn : n.isOpen = true)
    {items : List Sample} (filled : items = [] → n.truth ≠ some true) (d : Descriptor) :
    infer (.sequence kind n items) = .ok d ↔
      ∃ types, List.Forall₂ (fun s e => infer s = .ok e) items types ∧ .ofItems types = d := by
  rw [infer_sequence_iff hk hn]
  exact and_iff_right filled

/-- A list or tuple that is not open, or a sequence of another kind, has one type whatever it
holds. -/
theorem infer_sequence_of_closed (h : ¬ (kind ≠ .run ∧ n.isOpen = true)) (as bs : List Sample) :
    infer (.sequence kind n as) = infer (.sequence kind n bs) := by
  have parts (items : List Sample) : (Sample.sequence kind n items).parts = [] := by
    cases kind with
    | run => rfl
    | _ =>
      have hn : ¬ n.isOpen = true := fun hn => h ⟨by decide, hn⟩
      simp [Sample.parts, hn]
  have barren (items : List Sample) : (Sample.sequence kind n items).isBarren = false := by
    cases kind with
    | run => rfl
    | _ =>
      have hn : ¬ n.isOpen = true := fun hn => h ⟨by decide, hn⟩
      simp [Sample.isBarren, hn]
  simp only [infer, inferAt_eq, Sample.stops, barren, parts]
  rfl

/-- Whether a sequence is a list or a tuple makes no difference for its type. -/
theorem infer_tuple_iff {n m : Nature} (callable : n.callable = m.callable)
    (promise : n.promise = m.promise) (truth : n.truth = m.truth) (items : List Sample)
    (d : Descriptor) :
    infer (.sequence .tuple m items) = .ok d ↔ infer (.sequence .list n items) = .ok d := by
  have passes : (Sample.sequence .tuple m items).stops = (Sample.sequence .list n items).stops := by
    simp [Sample.stops, Sample.isOffender, Sample.isBarren, Sample.nature, Sample.isScalar,
      Nature.isOpen, callable, promise, truth]
  have parts : (Sample.sequence .tuple m items).parts = (Sample.sequence .list n items).parts := by
    simp [Sample.parts, Nature.isOpen, callable, promise, truth]
  have together : (Sample.sequence .tuple m items).typeFromParts =
      (Sample.sequence .list n items).typeFromParts := by
    funext types
    simp [Sample.typeFromParts, promise]
  rw [infer_eq_ok_iff, infer_eq_ok_iff, passes, parts, together]

end Sequences

section Mappings

variable {kind : MappingKind} {n : Nature}

/-- Fields are the texts of keys with the types of the values under them. -/
def Typed (entry : Sample × Sample) (field : Text × Descriptor) : Prop :=
  field.1 = entry.1.shown ∧ infer entry.2 = .ok field.2

theorem forall₂_typed_iff {entries : List (Sample × Sample)} {fields : List (Text × Descriptor)} :
    List.Forall₂ Typed entries fields ↔
      ∃ types, List.Forall₂ (fun e d => infer e.2 = .ok d) entries types ∧
        (entries.map fun e => e.1.shown).zip types = fields := by
  induction entries generalizing fields with
  | nil => simp [eq_comm]
  | cons e rest ih =>
    rw [List.forall₂_cons_left_iff]
    constructor
    · rintro ⟨f, tail, ⟨named, typed⟩, others, rfl⟩
      obtain ⟨types, found, rfl⟩ := ih.1 others
      exact ⟨f.2 :: types, .cons typed found, by simp [← named]⟩
    · rintro ⟨types, found, rfl⟩
      obtain ⟨d, types, typed, others, rfl⟩ := List.forall₂_cons_left_iff.1 found
      exact ⟨(e.1.shown, d), _, ⟨rfl, typed⟩, ih.2 ⟨types, others, rfl⟩, rfl⟩

theorem infer_mapping_iff (hn : n.isOpen = true) (entries : List (Sample × Sample))
    (d : Descriptor) :
    infer (.mapping kind n entries) = .ok d ↔
      ∃ fields, List.Forall₂ Typed entries fields ∧ .object (Entries.merged fields) = d := by
  obtain ⟨callable, promise, -⟩ := n.isOpen_iff.1 hn
  have parts : (Sample.mapping kind n entries).parts = Sample.named entries := by
    simp [Sample.parts, hn]
  have passes : (Sample.mapping kind n entries).stops = false := by
    simp [Sample.stops, Sample.isOffender, Sample.isBarren, Sample.nature, callable]
  rw [infer_eq_ok_iff, passes, parts]
  simp only [true_and, Sample.named, List.forall₂_map_left_iff, Sample.typeFromParts, promise,
    Bool.false_eq_true, if_false, forall₂_typed_iff, Entries.ofPairs_eq_merged]
  constructor
  · rintro ⟨types, found, rfl⟩
    exact ⟨_, ⟨types, found, rfl⟩, rfl⟩
  · rintro ⟨_, ⟨types, found, rfl⟩, rfl⟩
    exact ⟨types, found, rfl⟩

/-- A mapping that is not open has one type whatever it holds. -/
theorem infer_mapping_of_closed (hn : n.isOpen = false) (as bs : List (Sample × Sample)) :
    infer (.mapping kind n as) = infer (.mapping kind n bs) := by
  have parts (entries : List (Sample × Sample)) : (Sample.mapping kind n entries).parts = [] := by
    simp [Sample.parts, hn]
  simp only [infer, inferAt_eq, parts, inferParts, Except.map, Sample.typeFromParts,
    List.zip_nil_right]
  rfl

end Mappings

end SampleTypes
