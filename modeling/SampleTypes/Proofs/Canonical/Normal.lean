import SampleTypes.Proofs.Canonical.Basic
import SampleTypes.Proofs.Json.Parts

/-!
# The canonical form is a normal form

What the canonical form looks like, that it is its own canonical form, and which differences
between samples it forgets: the order of the entries of a mapping, as long as no two of its keys
have the same text, and whether a sequence is a list or a tuple, at any depth. Where two keys have
the same text the order of their entries says which of them counts, so these may not be moved.

## Main definitions

* `Sample.Respelled` — two samples differ in order and in kinds of sequences only

## Main results

* `Sample.ordered_of_canonical` — the names of every object in a canonical form increase
* `Sample.canonical_of_ordered` — a value in which they do is its own canonical form
* `Sample.Respelled.canonical_eq` — respelling changes nothing in the canonical form
* `Sample.canonical_normal` — all three
-/

namespace SampleTypes.Sample

variable {s t : Sample} {j : Json}

/-- In a canonical form names are different and sorted, at every depth. -/
theorem ordered_of_canonical (h : s.canonical = .ok j) : j.Ordered := by
  have scalar {k : Json} (noArray : ∀ items, k ≠ .array items)
      (noObject : ∀ members, k ≠ .object members) : k.Ordered := fun members within =>
    absurd ((Json.within_iff_eq noArray noObject).1 within).symm (noObject members)
  induction s using Sample.byContents generalizing j with
  | h s ih =>
    cases s with
    | sequence kind n items =>
      obtain ⟨-, js, found, rfl⟩ := canonical_sequence_iff.1 h
      refine Json.ordered_array fun k hk => ?_
      obtain ⟨t, ht, form⟩ := exists_of_mem_right found hk
      exact ih t ht form
    | mapping kind n entries =>
      obtain ⟨members, found, rfl⟩ := canonical_mapping_iff.1 h
      have nodup := Entries.nodup_names_merged (labelled entries)
      refine Json.ordered_object (found.names_eq ▸ Entries.names_sort_increasing nodup) ?_
      intro m hm
      obtain ⟨e, he, -, form⟩ := exists_of_mem_right found hm
      -- Neither sorting nor merging adds an entry.
      have merged : e ∈ Entries.merged (labelled entries) := (Entries.sort_perm _).mem_iff.1 he
      obtain ⟨entry, hentry, rfl⟩ := List.mem_map.1 (Entries.mem_of_mem_merged merged)
      exact ih entry.2 (List.mem_map_of_mem hentry) form
    | _ => cases h <;> exact scalar (by simp) (by simp)

/-- A value whose names increase is its own canonical form. -/
theorem canonical_of_ordered (h : j.Ordered) : (ofJson j).canonical = .ok j := by
  rw [canonical_ofJson h.distinct, h.sorted_eq]

/-! ## What the canonical form forgets -/

/-- One sample becomes the other by such steps, at any depth and any number of times. -/
inductive Respelled : Sample → Sample → Prop
  | refl (s : Sample) : Respelled s s
  | symm {s t : Sample} (h : Respelled s t) : Respelled t s
  | trans {r s t : Sample} (hrs : Respelled r s) (hst : Respelled s t) : Respelled r t
  /-- A tuple takes the place of a list of the same items. -/
  | tuple (n m : Nature) (items : List Sample) :
      Respelled (.sequence .list n items) (.sequence .tuple m items)
  /-- The entries of a mapping are moved, if no two of its keys have the same text. -/
  | entries (kind : MappingKind) (n : Nature) {as bs : List (Sample × Sample)} (h : as.Perm bs)
      (nodup : (as.map fun e => e.1.shown).Nodup) :
      Respelled (.mapping kind n as) (.mapping kind n bs)
  /-- Within an item. -/
  | item (kind : SequenceKind) (n : Nature) (before after : List Sample) {s t : Sample}
      (h : Respelled s t) :
      Respelled (.sequence kind n (before ++ s :: after)) (.sequence kind n (before ++ t :: after))
  /-- Within the value of an entry. -/
  | value (kind : MappingKind) (n : Nature) (before after : List (Sample × Sample)) (key : Sample)
      {s t : Sample} (h : Respelled s t) :
      Respelled (.mapping kind n (before ++ (key, s) :: after))
        (.mapping kind n (before ++ (key, t) :: after))

theorem canonicalItems_replace (h : s.canonical = t.canonical) (before after : List Sample) :
    canonicalItems (before ++ s :: after) = canonicalItems (before ++ t :: after) := by
  induction before with
  | nil => simp only [List.nil_append, canonicalItems, h]
  | cons r before ih => simp only [List.cons_append, canonicalItems, ih]

theorem canonical_of_perm (kind : MappingKind) (n : Nature) {as bs : List (Sample × Sample)}
    (h : as.Perm bs) (nodup : (as.map fun e => e.1.shown).Nodup) :
    (Sample.mapping kind n as).canonical = (Sample.mapping kind n bs).canonical := by
  have moved : (labelled as).Perm (labelled bs) := h.map _
  rw [← names_labelled] at nodup
  have nodup' := (moved.map Prod.fst).nodup_iff.1 nodup
  rw [canonical_mapping, canonical_mapping, Entries.merged_eq_self nodup,
    Entries.merged_eq_self nodup', Entries.sort_eq_of_perm moved nodup]

/-- Respelled samples have the same canonical form, or are refused for the same reason. -/
theorem Respelled.canonical_eq (h : Respelled s t) : s.canonical = t.canonical := by
  induction h with
  | refl s => rfl
  | symm _ ih => exact ih.symm
  | trans _ _ ihrs ihst => exact ihrs.trans ihst
  | tuple n m items => rfl
  | entries kind n h nodup => exact canonical_of_perm kind n h nodup
  | item kind n before after _ ih =>
    cases kind with
    | run => rfl
    | _ => rw [canonical_sequence (by decide), canonical_sequence (by decide),
        canonicalItems_replace ih]
  | value kind n before after key _ ih =>
    rw [canonical, canonical]
    simp only [canonicalEntries_eq_map, List.map_append, List.map_cons, ih]

/-- The canonical form is a normal form. Its objects have their names in increasing order at every
depth; it is its own canonical form; and all that differs from the sample only in the order of
entries with different texts, or in having tuples for lists, has the same one. -/
theorem canonical_normal (h : s.canonical = .ok j) :
    j.Ordered ∧ (ofJson j).canonical = .ok j ∧ ∀ t, s.Respelled t → t.canonical = .ok j := by
  have ordered := ordered_of_canonical h
  exact ⟨ordered, canonical_of_ordered ordered, fun t respelled => respelled.canonical_eq ▸ h⟩

/-- Two orders of entries, and a tuple and a list. -/
theorem canonical_normal_of_two_orders :
    let a := Text.ofString "a"
    let b := Text.ofString "b"
    let j : Json := .object [(a, .null), (b, .array [.int 1])]
    (Sample.dict [(ofText b, .list [ofInt 1]), (ofText a, .null)]).canonical = .ok j ∧
      (Sample.dict [(ofText a, .null), (ofText b, .tuple [ofInt 1])]).canonical = .ok j ∧
      (ofJson j).canonical = .ok j := by
  intro a b j
  let before : List (Sample × Sample) := [(ofText b, .list [ofInt 1]), (ofText a, .null)]
  have sorted : Entries.sort (Entries.merged (labelled before)) =
      [(a, .null), (b, .list [ofInt 1])] :=
    (Entries.sort_eq_of_perm (.swap ..) (by decide)).trans (Entries.sort_eq_self (by decide))
  have form : (Sample.mapping .dict (Nature.named "dict") before).canonical = .ok j := by
    refine canonical_mapping_iff.2 ⟨_, ?_, rfl⟩
    rw [sorted]
    exact .cons ⟨rfl, rfl⟩ (.cons ⟨rfl, rfl⟩ .nil)
  obtain ⟨-, again, respelled⟩ := canonical_normal form
  refine ⟨form, respelled _ (.trans (.entries .dict _ (.swap ..) (by decide)) ?_), again⟩
  exact .value .dict (Nature.named "dict") [(ofText a, .null)] [] (ofText b) (.tuple _ _ _)

end SampleTypes.Sample
