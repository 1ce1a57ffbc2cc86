import Mathlib.Data.List.Perm.Basic
import SampleTypes.Proofs.Descriptor.Codec
import SampleTypes.Proofs.Inference.Arrays
import SampleTypes.Proofs.Inference.Containers

/-!
# Values that are rearrangements of each other

A value is rearranged by moving or repeating items of a list, by moving entries of a mapping, by
taking a tuple for a list, and by putting a value with a type of the same shape in the place of
another, at any depth. The types of rearrangements need not be the same, because a list has the type
of its first item as it stands. But they have the same shape, and so the same digest: what counts
for a list is which shapes its items have, and what counts for a mapping is which shape each name
has.

## Main definitions

* `Sample.Rearranged` — one value becomes the other by such steps
* `Sample.Matches`, `Sample.SameType` — types that differ in the order of fields only

## Main results

* `Descriptor.ofItems_reordered` — the type of a list rests on the shapes of its items
* `Sample.Rearranged.sameType` — a step, and hence any number of them, keeps the shape
* `sameShape_of_rearranged` — rearrangements have the same shape and digest
-/

namespace SampleTypes

/-- One value becomes the other by rearranging, at any depth and any number of times. -/
inductive Sample.Rearranged : Sample → Sample → Prop
  | refl (s : Sample) : Rearranged s s
  | symm {s t : Sample} (h : Rearranged s t) : Rearranged t s
  | trans {r s t : Sample} (hrs : Rearranged r s) (hst : Rearranged s t) : Rearranged r t
  /-- The items of a list or tuple are moved. -/
  | move {kind : SequenceKind} {n : Nature} {as bs : List Sample} (h : as.Perm bs) :
      Rearranged (.sequence kind n as) (.sequence kind n bs)
  /-- An item is repeated. -/
  | again {kind : SequenceKind} {n : Nature} {items : List Sample} {s : Sample} (h : s ∈ items) :
      Rearranged (.sequence kind n items) (.sequence kind n (s :: items))
  /-- A tuple takes the place of a list that is called, awaited and tested alike. -/
  | tuple {n m : Nature} (callable : n.callable = m.callable) (promise : n.promise = m.promise)
      (truth : n.truth = m.truth) (items : List Sample) :
      Rearranged (.sequence .list n items) (.sequence .tuple m items)
  /-- The entries of a mapping are moved, if no two of its keys have the same text. -/
  | entries {kind : MappingKind} {n : Nature} {as bs : List (Sample × Sample)} (h : as.Perm bs)
      (nodup : (as.map fun e => e.1.shown).Nodup) :
      Rearranged (.mapping kind n as) (.mapping kind n bs)
  /-- A value is replaced by one with a type of the same shape. -/
  | replace {s t : Sample} {d e : Descriptor} (hs : infer s = .ok d) (ht : infer t = .ok e)
      (same : d.sameShape e = true) : Rearranged s t
  /-- Within an item. -/
  | item (kind : SequenceKind) (n : Nature) (before after : List Sample) {s t : Sample}
      (h : Rearranged s t) :
      Rearranged (.sequence kind n (before ++ s :: after)) (.sequence kind n (before ++ t :: after))
  /-- Within the value of an entry. -/
  | value (kind : MappingKind) (n : Nature) (before after : List (Sample × Sample)) (key : Sample)
      {s t : Sample} (h : Rearranged s t) :
      Rearranged (.mapping kind n (before ++ (key, s) :: after))
        (.mapping kind n (before ++ (key, t) :: after))

namespace Sample

/-- Where the one value has a type, the other has one that differs in the order of fields only. -/
def Matches (s t : Sample) : Prop :=
  ∀ d, infer s = .ok d → ∃ e, infer t = .ok e ∧ Outline.Reordered d e

/-- Two values have types that differ in the order of fields only, or have no types. -/
structure SameType (s t : Sample) : Prop where
  forth : s.Matches t
  back : t.Matches s

variable {r s t : Sample}

theorem Matches.of_eq (h : infer s = infer t) : s.Matches t := fun d hd => ⟨d, h ▸ hd, .refl d⟩

theorem Matches.trans (hrs : r.Matches s) (hst : s.Matches t) : r.Matches t := by
  intro d hd
  obtain ⟨e, he, hde⟩ := hrs d hd
  obtain ⟨f, hf, hef⟩ := hst e he
  exact ⟨f, hf, .trans hde hef⟩

theorem SameType.of_eq (h : infer s = infer t) : SameType s t := ⟨.of_eq h, .of_eq h.symm⟩

@[refl] theorem SameType.refl (s : Sample) : SameType s s := .of_eq rfl

@[symm] theorem SameType.symm (h : SameType s t) : SameType t s := ⟨h.back, h.forth⟩

theorem SameType.trans (hrs : SameType r s) (hst : SameType s t) : SameType r t :=
  ⟨hrs.forth.trans hst.forth, hst.back.trans hrs.back⟩

end Sample

/-! ## Lists -/

theorem Descriptor.ofItems_eq_mixed_of_exists {first : Descriptor} {rest : List Descriptor}
    (distinct : ∀ d ∈ first :: rest, Outline.Distinct d)
    (differs : ∃ d ∈ first :: rest, ¬ Outline.Reordered first d) :
    ofItems (first :: rest) = .array (.primitive .mixed) := by
  obtain ⟨d, hd, differs⟩ := differs
  rcases List.mem_cons.1 hd with rfl | hd
  · exact absurd (.refl _) differs
  · exact ofItems_eq_mixed distinct hd differs

/-- The type of a list is the same, up to the order of fields, if its items have the same shapes:
neither their order nor their number matters. -/
theorem Descriptor.ofItems_reordered {as bs : List Descriptor}
    (distinctA : ∀ a ∈ as, Outline.Distinct a) (distinctB : ∀ b ∈ bs, Outline.Distinct b)
    (hab : ∀ a ∈ as, ∃ b ∈ bs, Outline.Reordered a b)
    (hba : ∀ b ∈ bs, ∃ a ∈ as, Outline.Reordered a b) :
    Outline.Reordered (ofItems as) (ofItems bs) := by
  cases as with
  | nil =>
    cases bs with
    | nil => exact .refl _
    | cons b _ =>
      obtain ⟨_, ha, _⟩ := hba b (List.mem_cons_self ..)
      cases ha
  | cons a as =>
    obtain ⟨b', hb', _⟩ := hab a (List.mem_cons_self ..)
    cases bs with
    | nil => cases hb'
    | cons b bs =>
      -- Whether all items have the shape of the first is the same question on both sides.
      by_cases same : ∀ e ∈ a :: as, Outline.Reordered a e
      · have like : ∀ f ∈ b :: bs, Outline.Reordered a f := fun f hf => by
          obtain ⟨e, he, hef⟩ := hba f hf
          exact .trans (same e he) hef
        have first := like b (List.mem_cons_self ..)
        rw [ofItems_eq_first distinctA fun e he => same e (List.mem_cons_of_mem _ he),
          ofItems_eq_first distinctB fun f hf =>
            .trans first.symm (like f (List.mem_cons_of_mem _ hf))]
        exact .element first
      · have differs : ∃ f ∈ b :: bs, ¬ Outline.Reordered b f := by
          by_contra all
          push Not at all
          have back : ∀ e ∈ a :: as, Outline.Reordered b e := fun e he => by
            obtain ⟨f, hf, hef⟩ := hab e he
            exact .trans (all f hf) hef.symm
          exact same fun e he => .trans (back a (List.mem_cons_self ..)).symm (back e he)
        push Not at same
        rw [ofItems_eq_mixed_of_exists distinctA same, ofItems_eq_mixed_of_exists distinctB differs]
        exact .refl _

namespace Sample

section

variable {kind : SequenceKind} {n : Nature}

theorem Matches.sequence {as bs : List Sample} (hab : ∀ s ∈ as, ∃ t ∈ bs, s.Matches t)
    (hba : ∀ t ∈ bs, ∃ s ∈ as, s.Matches t) :
    (Sample.sequence kind n as).Matches (.sequence kind n bs) := by
  by_cases opened : kind ≠ .run ∧ n.isOpen = true
  · obtain ⟨hk, hn⟩ := opened
    intro d hd
    obtain ⟨filled, types, found, rfl⟩ := (infer_sequence_iff hk hn as d).1 hd
    have typed : ∀ t ∈ bs, ∃ e, infer t = .ok e := fun t ht => by
      obtain ⟨s, hs, hst⟩ := hba t ht
      obtain ⟨a, -, hsa⟩ := exists_of_mem_right found.flip hs
      obtain ⟨e, hte, -⟩ := hst a hsa
      exact ⟨e, hte⟩
    obtain ⟨types', found'⟩ := exists_types typed
    -- An empty list takes the place of an empty one only.
    have filled' : bs = [] → n.truth ≠ some true := by
      rintro rfl
      refine filled (List.eq_nil_iff_forall_not_mem.2 fun s hs => ?_)
      obtain ⟨t, ht, -⟩ := hab s hs
      cases ht
    refine ⟨_, (infer_sequence_iff hk hn bs _).2 ⟨filled', types', found', rfl⟩, ?_⟩
    -- Each type of an item on the one side is reordered to one on the other side.
    have agree {s t : Sample} (hst : s.Matches t) {a b : Descriptor} (hsa : infer s = .ok a)
        (htb : infer t = .ok b) : Outline.Reordered a b := by
      obtain ⟨e, hte, hae⟩ := hst a hsa
      exact Except.ok.inj (hte.symm.trans htb) ▸ hae
    apply Descriptor.ofItems_reordered
    · intro a ha
      obtain ⟨s, -, hsa⟩ := exists_of_mem_right found ha
      exact infer_distinct hsa
    · intro b hb
      obtain ⟨t, -, htb⟩ := exists_of_mem_right found' hb
      exact infer_distinct htb
    · intro a ha
      obtain ⟨s, hs, hsa⟩ := exists_of_mem_right found ha
      obtain ⟨t, ht, hst⟩ := hab s hs
      obtain ⟨b, hb, htb⟩ := exists_of_mem_right found'.flip ht
      exact ⟨b, hb, agree hst hsa htb⟩
    · intro b hb
      obtain ⟨t, ht, htb⟩ := exists_of_mem_right found' hb
      obtain ⟨s, hs, hst⟩ := hba t ht
      obtain ⟨a, ha, hsa⟩ := exists_of_mem_right found.flip hs
      exact ⟨a, ha, agree hst hsa htb⟩
  · exact .of_eq (infer_sequence_of_closed opened as bs)

/-- What counts for a list is which items it has, up to values of the same type. -/
theorem SameType.sequence {as bs : List Sample} (hab : ∀ s ∈ as, ∃ t ∈ bs, SameType s t)
    (hba : ∀ t ∈ bs, ∃ s ∈ as, SameType s t) :
    SameType (.sequence kind n as) (.sequence kind n bs) where
  forth := by
    apply Matches.sequence
    · exact fun s hs => (hab s hs).imp fun t ⟨ht, h⟩ => ⟨ht, h.forth⟩
    · exact fun t ht => (hba t ht).imp fun s ⟨hs, h⟩ => ⟨hs, h.forth⟩
  back := by
    apply Matches.sequence
    · exact fun t ht => (hba t ht).imp fun s ⟨hs, h⟩ => ⟨hs, h.back⟩
    · exact fun s hs => (hab s hs).imp fun t ⟨ht, h⟩ => ⟨ht, h.back⟩

/-- Lists with the same items have types of the same shape. -/
theorem SameType.items {as bs : List Sample} (h : ∀ s, s ∈ as ↔ s ∈ bs) :
    SameType (.sequence kind n as) (.sequence kind n bs) :=
  .sequence (fun s hs => ⟨s, (h s).1 hs, .refl s⟩) fun s hs => ⟨s, (h s).2 hs, .refl s⟩

theorem SameType.item (before after : List Sample) (h : SameType s t) :
    SameType (.sequence kind n (before ++ s :: after))
      (.sequence kind n (before ++ t :: after)) := by
  have others {u : Sample} (v : Sample) (hu : u ∈ before ∨ u ∈ after) :
      u ∈ before ++ v :: after := by
    rw [List.mem_append, List.mem_cons]
    tauto
  have cases_mem {u v : Sample} (hu : u ∈ before ++ v :: after) :
      u = v ∨ u ∈ before ∨ u ∈ after := by
    rw [List.mem_append, List.mem_cons] at hu
    tauto
  apply SameType.sequence
  · intro u hu
    rcases cases_mem hu with rfl | hu
    · exact ⟨t, by simp, h⟩
    · exact ⟨u, others t hu, .refl u⟩
  · intro u hu
    rcases cases_mem hu with rfl | hu
    · exact ⟨s, by simp, h⟩
    · exact ⟨u, others s hu, .refl u⟩

end

/-! ## Mappings -/

section

variable {kind : MappingKind} {n : Nature} {as bs : List (Sample × Sample)}

theorem exists_related_fields (h : List.Forall₂ (fun a b => a.1 = b.1 ∧ a.2.Matches b.2) as bs)
    {fields : List (Text × Descriptor)} (typed : List.Forall₂ Typed as fields) :
    ∃ fields', List.Forall₂ Typed bs fields' ∧
      Entries.Related Outline.Reordered fields fields' := by
  induction h generalizing fields with
  | nil =>
    obtain rfl := List.forall₂_nil_left_iff.1 typed
    exact ⟨[], .nil, .nil⟩
  | @cons a b as bs first _ ih =>
    obtain ⟨f, rest, ⟨named, type⟩, others, rfl⟩ := List.forall₂_cons_left_iff.1 typed
    obtain ⟨key, matched⟩ := first
    obtain ⟨e, he, hfe⟩ := matched f.2 type
    obtain ⟨rest', others', related⟩ := ih others
    exact ⟨(f.1, e) :: rest', .cons ⟨key ▸ named, he⟩ others', .cons ⟨rfl, hfe⟩ related⟩

/-- What counts for a mapping is the type of the value under each key. -/
theorem Matches.mapping (h : List.Forall₂ (fun a b => a.1 = b.1 ∧ a.2.Matches b.2) as bs) :
    (Sample.mapping kind n as).Matches (.mapping kind n bs) := by
  cases hn : n.isOpen with
  | false => exact .of_eq (infer_mapping_of_closed hn as bs)
  | true =>
    intro d hd
    obtain ⟨fields, typed, rfl⟩ := (infer_mapping_iff hn as d).1 hd
    obtain ⟨fields', typed', related⟩ := exists_related_fields h typed
    exact ⟨_, (infer_mapping_iff hn bs _).2 ⟨fields', typed', rfl⟩, .related related.merged⟩

theorem SameType.value (before after : List (Sample × Sample)) (key : Sample)
    (h : SameType s t) :
    SameType (.mapping kind n (before ++ (key, s) :: after))
      (.mapping kind n (before ++ (key, t) :: after)) := by
  have same (es : List (Sample × Sample)) :
      List.Forall₂ (fun a b : Sample × Sample => a.1 = b.1 ∧ a.2.Matches b.2) es es :=
    List.forall₂_same.2 fun e _ => ⟨rfl, .of_eq rfl⟩
  constructor
  · exact .mapping (List.rel_append (same before) (.cons ⟨rfl, h.forth⟩ (same after)))
  · exact .mapping (List.rel_append (same before) (.cons ⟨rfl, h.back⟩ (same after)))

theorem Matches.entries (h : as.Perm bs) (nodup : (as.map fun e => e.1.shown).Nodup) :
    (Sample.mapping kind n as).Matches (.mapping kind n bs) := by
  cases hn : n.isOpen with
  | false => exact .of_eq (infer_mapping_of_closed hn as bs)
  | true =>
    intro d hd
    obtain ⟨fields, typed, rfl⟩ := (infer_mapping_iff hn as d).1 hd
    obtain ⟨fields', typed', moved⟩ := List.perm_comp_forall₂ h.symm typed
    have names : Entries.names fields = as.map fun e => e.1.shown := by
      rw [← List.forall₂_eq_eq_eq, Entries.names, List.forall₂_map_left_iff,
        List.forall₂_map_right_iff]
      exact typed.flip.imp fun _ _ h => h.1
    have nodupA : (Entries.names fields).Nodup := names ▸ nodup
    have nodupB : (Entries.names fields').Nodup := (moved.map Prod.fst).nodup_iff.2 nodupA
    -- No name repeats, so merging leaves the fields as they are.
    refine ⟨_, (infer_mapping_iff hn bs _).2 ⟨fields', typed', rfl⟩, ?_⟩
    rw [Entries.merged_eq_self nodupA, Entries.merged_eq_self nodupB]
    exact .move moved.symm

end

/-! ## Any number of steps -/

theorem SameType.of_sameShape {d e : Descriptor} (hs : infer s = .ok d)
    (ht : infer t = .ok e) (same : d.sameShape e = true) : SameType s t := by
  have reordered : Outline.Reordered d e :=
    (Descriptor.shapeKey_eq_iff_of_distinct (infer_distinct hs) (infer_distinct ht)).1
      (beq_iff_eq.1 same)
  constructor
  · intro d' hd'
    exact ⟨e, ht, Except.ok.inj (hs.symm.trans hd') ▸ reordered⟩
  · intro e' he'
    exact ⟨d, hs, Except.ok.inj (ht.symm.trans he') ▸ reordered.symm⟩

/-- Rearranging keeps the shape of the type, and does not take the type away. -/
theorem Rearranged.sameType (h : s.Rearranged t) : SameType s t := by
  induction h with
  | refl s => exact .refl s
  | symm _ ih => exact ih.symm
  | trans _ _ ihrs ihst => exact ihrs.trans ihst
  | move h => exact .items fun _ => h.mem_iff
  | again h => exact .items fun s => ⟨List.mem_cons_of_mem _, fun hs => by
      rcases List.mem_cons.1 hs with rfl | hs
      · exact h
      · exact hs⟩
  | tuple callable promise truth items =>
    have same := infer_tuple_iff callable promise truth items
    exact ⟨fun d hd => ⟨d, (same d).2 hd, .refl d⟩, fun d hd => ⟨d, (same d).1 hd, .refl d⟩⟩
  | entries h nodup =>
    have nodup' := (h.map fun e : Sample × Sample => e.1.shown).nodup_iff.1 nodup
    exact ⟨.entries h nodup, .entries h.symm nodup'⟩
  | replace hs ht same => exact .of_sameShape hs ht same
  | item kind n before after _ ih => exact .item before after ih
  | value kind n before after key _ ih => exact .value before after key ih

end Sample

/-! ## Shapes and digests -/

theorem Descriptor.digest_eq_of_sameShape {d e : Descriptor} (same : d.sameShape e = true) :
    (Sample.ofJson d.toJson).digest = (Sample.ofJson e.toJson).digest := by
  -- The key of a shape is the very text that the digest is taken of.
  have key : d.toJson.sorted.compact = e.toJson.sorted.compact := by
    rw [← Descriptor.shapeKey_eq, ← Descriptor.shapeKey_eq]
    exact beq_iff_eq.1 same
  rw [Sample.digest_ofJson (Descriptor.distinct_toJson d),
    Sample.digest_ofJson (Descriptor.distinct_toJson e), Json.digest, Json.digest, key]

/-- Values that are rearrangements of each other have types of the same shape, and these have the
same digest. -/
theorem sameShape_of_rearranged {s t : Sample} {d e : Descriptor} (h : s.Rearranged t)
    (hd : infer s = .ok d) (he : infer t = .ok e) :
    d.sameShape e = true ∧
      (Sample.ofJson d.toJson).digest = (Sample.ofJson e.toJson).digest := by
  obtain ⟨e', he', reordered⟩ := h.sameType.forth d hd
  obtain rfl : e' = e := Except.ok.inj (he'.symm.trans he)
  have same : d.sameShape e' = true :=
    beq_iff_eq.2 ((Descriptor.shapeKey_eq_iff_of_distinct (infer_distinct hd)
      (infer_distinct he)).2 reordered)
  exact ⟨same, Descriptor.digest_eq_of_sameShape same⟩

/-- A list of one object, and a tuple that has the object twice with its entries moved: their types
have the fields in another order, and the same shape and digest. -/
theorem sameShape_of_moved_entries :
    let a : Sample × Sample := (.ofText (Text.ofString "a"), .ofInt 1)
    let b : Sample × Sample := (.ofText (Text.ofString "b"), .null)
    let s := Sample.list [.dict [a, b]]
    let t := Sample.tuple [.dict [b, a], .dict [b, a]]
    let number : Text × Descriptor := (Text.ofString "a", .primitive .number)
    let null : Text × Descriptor := (Text.ofString "b", .primitive .null)
    let d : Descriptor := .array (.object [number, null])
    let e : Descriptor := .array (.object [null, number])
    s.Rearranged t ∧ infer s = .ok d ∧ infer t = .ok e ∧ d ≠ e ∧
      d.sameShape e = true ∧
      (Sample.ofJson d.toJson).digest = (Sample.ofJson e.toJson).digest := by
  intro a b s t number null d e
  have moved : (Sample.dict [a, b]).Rearranged (.dict [b, a]) :=
    .entries (.swap ..) (by decide)
  have within : s.Rearranged (.list [.dict [b, a]]) :=
    .item .list (Nature.named "list") [] [] moved
  have twice : (Sample.list [.dict [b, a]]).Rearranged (.list [.dict [b, a], .dict [b, a]]) :=
    .again (List.mem_singleton_self _)
  have rearranged : s.Rearranged t :=
    .trans within (.trans twice
      (.tuple (n := Nature.named "list") (m := Nature.named "tuple") rfl rfl rfl _))
  have hd : infer s = .ok d := rfl
  have hba : infer (.dict [b, a]) = .ok (.object [null, number]) := rfl
  have he : infer t = .ok e := by
    have both : infer t =
        .ok (.ofItems [.object [null, number], .object [null, number]]) :=
      infer_sequence (by decide) rfl rfl (by decide) (.cons hba (.cons hba .nil))
    rw [Descriptor.ofItems_eq_first] at both
    · exact both
    · simpa using infer_distinct hba
    · simp [Outline.Reordered.refl]
  exact ⟨rearranged, hd, he, by simp [d, e, number, null], sameShape_of_rearranged rearranged hd he⟩

end SampleTypes
