import SampleTypes.Proofs.Canonical.Basic
import SampleTypes.Proofs.Inference.Containers

/-!
# Keys with the same text

Keys of a mapping are told apart by more than their texts, and fields and members by their texts
only. Wherever entries are put under the texts of their keys, those with the same text are merged
alike: what comes of them stands at the place of the first and is made of the value of the last.
The type of a mapping, an object type made of keys and types, and the canonical form of a mapping,
which is sorted afterwards, agree in that.

## Main definitions

* `HasTypes` — entries with the types of the values in the places of these

## Main results

* `Descriptor.names_ofEntries`, `Descriptor.field?_ofEntries` — an object type made of entries
* `infer_mapping_eq_ofEntries` — the type of a mapping is made of the types of its values
* `Sample.members_of_canonical` — the members of a canonical form
* `entries_merge_alike` — all three, in terms of the entries
-/

namespace SampleTypes

/-- The same keys in the same places, and for each value its type. -/
def HasTypes (entries : List (Sample × Sample)) (typed : List (Sample × Descriptor)) : Prop :=
  List.Forall₂ (fun e t => e.1 = t.1 ∧ infer e.2 = .ok t.2) entries typed

theorem HasTypes.labelled {entries : List (Sample × Sample)} {typed : List (Sample × Descriptor)}
    (h : HasTypes entries typed) :
    Entries.Related (fun s d => infer s = .ok d) (Sample.labelled entries)
      (Sample.labelled typed) := by
  simp only [Entries.Related, Sample.labelled, List.forall₂_map_left_iff,
    List.forall₂_map_right_iff]
  exact List.Forall₂.imp (fun e t both => ⟨by rw [both.1], both.2⟩) h

/-! ## The three places -/

/-- The fields of an object type are named in the order in which the names appear. -/
theorem Descriptor.names_ofEntries (typed : List (Sample × Descriptor)) :
    (Descriptor.ofEntries typed).names = (typed.map fun t => t.1.shown).eraseDups := by
  change Entries.names (Entries.ofPairs (Sample.labelled typed)) = _
  rw [Entries.ofPairs_eq_merged, Entries.names_merged, Sample.names_labelled]

/-- Every field has the last of its types. -/
theorem Descriptor.field?_ofEntries (typed : List (Sample × Descriptor)) (name : Text) :
    (Descriptor.ofEntries typed).field? name = Entries.last? name (Sample.labelled typed) := by
  change Entries.find? name (Entries.ofPairs (Sample.labelled typed)) = _
  rw [Entries.ofPairs_eq_merged, Entries.find?_merged]

/-- The type of a mapping is made of its keys and of the types of its values. -/
theorem infer_mapping_eq_ofEntries {kind : MappingKind} {n : Nature} (hn : n.isOpen = true)
    {entries : List (Sample × Sample)} {typed : List (Sample × Descriptor)}
    (h : HasTypes entries typed) :
    infer (.mapping kind n entries) = .ok (.ofEntries typed) := by
  refine (infer_mapping_iff hn entries _).2 ⟨Sample.labelled typed, ?_, ?_⟩
  · exact (List.forall₂_map_left_iff.1 h.labelled).imp fun _ _ both => ⟨both.1.symm, both.2⟩
  · rw [Descriptor.ofEntries, Entries.ofPairs_eq_merged]
    rfl

/-- The canonical form of a mapping has the different texts of the keys for its names, and under
each of them the canonical form of the last value. -/
theorem Sample.members_of_canonical {kind : MappingKind} {n : Nature}
    {entries : List (Sample × Sample)} {j : Json}
    (h : (Sample.mapping kind n entries).canonical = .ok j) :
    ∃ members, j = .object members ∧
      (Entries.names members).Perm (entries.map fun e => e.1.shown).eraseDups ∧
      ∀ name, Option.Rel (fun s k => s.canonical = .ok k)
        (Entries.last? name (labelled entries)) (j.member? name) := by
  obtain ⟨members, related, rfl⟩ := canonical_mapping_iff.1 h
  have nodup := Entries.nodup_names_merged (labelled entries)
  have moved := Entries.sort_perm (Entries.merged (labelled entries))
  refine ⟨members, rfl, ?_, fun name => ?_⟩
  · rw [← related.names_eq, ← names_labelled, ← Entries.names_merged]
    exact moved.map Prod.fst
  · -- Sorting moves entries of different names, so each is still found.
    rw [← Entries.find?_merged, ← Entries.find?_eq_of_perm moved (Entries.nodup_names_sort nodup)]
    exact related.find? name

/-! ## All three -/

/-- What becomes of entries whose keys have one text. If the values of a mapping that inference
looks into have types, the type of the mapping is the object type made of its keys and these types:
its names are the different texts of the keys in the order in which they appear, and the type under
a name is that of the last value under it. The canonical form, if there is one, has the same names,
and under each of them the canonical form of the same value. -/
theorem entries_merge_alike (kind : MappingKind) (n : Nature) (entries : List (Sample × Sample)) :
    (n.isOpen = true → (∀ e ∈ entries, ∃ d, infer e.2 = .ok d) →
      ∃ typed, HasTypes entries typed ∧
        infer (.mapping kind n entries) = .ok (.ofEntries typed) ∧
        (Descriptor.ofEntries typed).names = (entries.map fun e => e.1.shown).eraseDups ∧
        ∀ name, Option.Rel (fun s d => infer s = .ok d)
          (Entries.last? name (Sample.labelled entries))
          ((Descriptor.ofEntries typed).field? name)) ∧
    ∀ j, (Sample.mapping kind n entries).canonical = .ok j →
      ∃ members, j = .object members ∧
        (Entries.names members).Perm (entries.map fun e => e.1.shown).eraseDups ∧
        ∀ name, Option.Rel (fun s k => s.canonical = .ok k)
          (Entries.last? name (Sample.labelled entries)) (j.member? name) := by
  refine ⟨fun hn inferred => ?_, fun j h => Sample.members_of_canonical h⟩
  obtain ⟨typed, h⟩ : ∃ typed, HasTypes entries typed :=
    exists_forall₂ fun e he => (inferred e he).imp' (Prod.mk e.1) fun d hd => ⟨rfl, hd⟩
  refine ⟨typed, h, infer_mapping_eq_ofEntries hn h, ?_, fun name => ?_⟩
  · rw [Descriptor.names_ofEntries, ← Sample.names_labelled, ← Sample.names_labelled,
      h.labelled.names_eq]
  · rw [Descriptor.field?_ofEntries]
    exact h.labelled.last? name

/-- A number and a text that is written alike are two keys and one name. -/
theorem entries_merge_alike_of_number_and_text :
    let one := Text.ofString "1"
    let entries : List (Sample × Sample) :=
      [(.ofInt 1, .null), (.ofText (Text.ofString "x"), .bool true), (.ofText one, .ofText one)]
    (∃ d, infer (.dict entries) = .ok d ∧ d.names = [one, Text.ofString "x"] ∧
      d.field? one = some (.primitive .string)) ∧
    ∃ j, (Sample.dict entries).canonical = .ok j ∧ j.member? one = some (.text one) := by
  intro one entries
  obtain ⟨typeOf, formOf⟩ := entries_merge_alike .dict (Nature.named "dict") entries
  constructor
  · have inferred : ∀ e ∈ entries, ∃ d, infer e.2 = .ok d := by
      simp only [entries, List.forall_mem_cons]
      exact ⟨⟨_, rfl⟩, ⟨_, rfl⟩, ⟨_, rfl⟩, by simp⟩
    obtain ⟨typed, -, found, names, fields⟩ := typeOf rfl inferred
    obtain ⟨d, last, text⟩ : ∃ d, (Descriptor.ofEntries typed).field? one = some d ∧
        infer (.ofText one) = .ok d := exists_of_rel_some (fields one)
    exact ⟨_, found, names, last.trans (congrArg some (Except.ok.inj text).symm)⟩
  · have merged : Entries.merged (Sample.labelled entries) =
        [(one, .ofText one), (Text.ofString "x", .bool true)] := rfl
    have form : (Sample.mapping .dict (Nature.named "dict") entries).canonical =
        .ok (.object [(one, .text one), (Text.ofString "x", .bool true)]) := by
      refine Sample.canonical_mapping_iff.2 ⟨_, ?_, rfl⟩
      rw [merged, Entries.sort_eq_self (by decide)]
      exact .cons ⟨rfl, rfl⟩ (.cons ⟨rfl, rfl⟩ .nil)
    obtain ⟨_, -, -, members⟩ := formOf _ form
    obtain ⟨k, last, text⟩ : ∃ k, Json.member? one _ = some k ∧
        (Sample.ofText one).canonical = .ok k := exists_of_rel_some (members one)
    exact ⟨_, form, last.trans (congrArg some (Except.ok.inj text).symm)⟩

end SampleTypes
