import SampleTypes.Canonical
import SampleTypes.Proofs.Entries
import SampleTypes.Proofs.Stages

/-!
# Canonical forms from the contents

The canonical form of a list or tuple has those of its items. That of a mapping has one member for
every text of a key, in the order of the texts, with the canonical form of the last value under it.
A sample that is neither stands for itself or has no canonical form.

## Main definitions

* `Sample.labelled` — the entries of a mapping under the texts of their keys
* `Sample.contents` — the items of a sequence and the values of a mapping

## Main results

* `settle_eq_ok_iff` — outcomes are settled if all are successes
* `Sample.canonical_sequence_iff`, `Sample.canonical_mapping_iff` — the canonical forms of
  containers
* `Sample.byContents` — induction along the contents
-/

namespace SampleTypes

theorem settle_eq_mapM {ε α : Type} (outcomes : List (Text × Except ε α)) :
    settle outcomes = outcomes.mapM fun o => o.2.map (Prod.mk o.1) := by
  induction outcomes with
  | nil => rfl
  | cons o rest ih =>
    rw [settle, List.mapM_cons, ih]
    cases o.2 <;> rfl

theorem settle_eq_ok_iff {ε α : Type} {outcomes : List (Text × Except ε α)}
    {settled : List (Text × α)} :
    settle outcomes = .ok settled ↔ Entries.Related (fun x a => x = .ok a) outcomes settled := by
  have each (o : Text × Except ε α) (e : Text × α) :
      o.2.map (Prod.mk o.1) = .ok e ↔ o.1 = e.1 ∧ o.2 = .ok e.2 := by
    rw [map_eq_ok_iff]
    constructor
    · rintro ⟨a, ha, rfl⟩
      exact ⟨rfl, ha⟩
    · rintro ⟨name, ha⟩
      exact ⟨e.2, ha, by rw [name]⟩
  simp only [settle_eq_mapM, mapM_eq_ok_iff, each]

namespace Sample

/-- Entries under the texts of their keys. -/
def labelled {α : Type} (entries : List (Sample × α)) : Entries α :=
  entries.map fun e => (e.1.shown, e.2)

theorem names_labelled {α : Type} (entries : List (Sample × α)) :
    (labelled entries).names = entries.map fun e => e.1.shown := by
  simp [labelled, Entries.names]

theorem canonicalEntries_eq_map (entries : List (Sample × Sample)) :
    canonicalEntries entries = entries.map fun e => (e.1.shown, e.2.canonical) := by
  induction entries with
  | nil => rfl
  | cons e rest ih => rw [canonicalEntries, ih, List.map_cons]

theorem canonicalItems_eq_mapM (items : List Sample) :
    canonicalItems items = items.mapM canonical := by
  induction items with
  | nil => rfl
  | cons s rest ih => rw [canonicalItems, List.mapM_cons, ih]

theorem canonicalItems_eq_ok_iff {items : List Sample} {js : List Json} :
    canonicalItems items = .ok js ↔ List.Forall₂ (fun s j => s.canonical = .ok j) items js := by
  rw [canonicalItems_eq_mapM, mapM_eq_ok_iff]

theorem canonical_sequence {kind : SequenceKind} (hk : kind ≠ .run) (n : Nature)
    (items : List Sample) :
    (Sample.sequence kind n items).canonical = (canonicalItems items).map .array := by
  cases kind with
  | run => exact absurd rfl hk
  | _ => rfl

theorem canonical_sequence_iff {kind : SequenceKind} {n : Nature} {items : List Sample}
    {j : Json} :
    (Sample.sequence kind n items).canonical = .ok j ↔ kind ≠ .run ∧
      ∃ js, List.Forall₂ (fun s j => s.canonical = .ok j) items js ∧ .array js = j := by
  cases kind with
  | run =>
    rw [canonical]
    simp
  | _ =>
    rw [canonical_sequence (by decide), map_eq_ok_iff]
    simp [canonicalItems_eq_ok_iff]

/-- Names are merged and sorted before any value is looked at. -/
theorem canonical_mapping (kind : MappingKind) (n : Nature) (entries : List (Sample × Sample)) :
    (Sample.mapping kind n entries).canonical =
      (settle ((Entries.sort (Entries.merged (labelled entries))).map
        fun e => (e.1, e.2.canonical))).map .object := by
  have outcomes : canonicalEntries entries =
      (labelled entries).map fun e => (e.1, e.2.canonical) := by
    rw [canonicalEntries_eq_map, labelled, List.map_map]
    rfl
  rw [canonical, outcomes, Entries.ofPairs_eq_merged, Entries.merged_map, Entries.sort_map]

theorem canonical_mapping_iff {kind : MappingKind} {n : Nature}
    {entries : List (Sample × Sample)} {j : Json} :
    (Sample.mapping kind n entries).canonical = .ok j ↔
      ∃ members, Entries.Related (fun s k => s.canonical = .ok k)
        (Entries.sort (Entries.merged (labelled entries))) members ∧ .object members = j := by
  rw [canonical_mapping, map_eq_ok_iff]
  simp only [settle_eq_ok_iff, List.forall₂_map_left_iff]

/-! ## Induction along the contents -/

/-- The items of a sequence and the values of a mapping. -/
def contents : Sample → List Sample
  | .sequence _ _ items => items
  | .mapping _ _ entries => entries.map Prod.snd
  | _ => []

theorem sizeOf_lt_of_mem_contents {s t : Sample} (h : t ∈ s.contents) : sizeOf t < sizeOf s := by
  cases s with
  | sequence kind n items =>
    have := List.sizeOf_lt_of_mem h
    simp only [contents, sequence.sizeOf_spec] at this ⊢
    omega
  | mapping kind n entries =>
    obtain ⟨⟨key, t⟩, he, rfl⟩ := List.mem_map.1 h
    have := List.sizeOf_lt_of_mem he
    simp only [mapping.sizeOf_spec, Prod.mk.sizeOf_spec] at this ⊢
    omega
  | _ => cases h

/-- Induction along the contents: what holds of a sample if it holds of its contents. -/
@[elab_as_elim]
theorem byContents {motive : Sample → Prop} (h : ∀ s, (∀ t ∈ s.contents, motive t) → motive s)
    (s : Sample) : motive s :=
  h s fun t _ => byContents h t
termination_by sizeOf s
decreasing_by exact sizeOf_lt_of_mem_contents ‹_›

end Sample

end SampleTypes
