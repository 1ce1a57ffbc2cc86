import SampleTypes.Proofs.Descriptor.Basic

/-!
# Types that differ in the order of fields

Two types are reorderings of each other if one becomes the other by moving fields within their
objects, at any depth and any number of times. Sorting decides it: a type is a reordering of its
sorted form, and a step between types with distinct names does not change that form.

## Main definitions

* `Outline.Reordered` — one type becomes the other by moving fields

## Main results

* `Outline.reordered_sorted` — a type is a reordering of its sorted form
* `Outline.Reordered.sorted_eq` — reorderings have one sorted form
* `Outline.reordered_iff` — reorderings are the types with one sorted form
-/

namespace SampleTypes.Outline

variable {φ : Type}

/-- Two types are the same up to the order of the fields of their objects, at every depth. -/
inductive Reordered : Outline φ → Outline φ → Prop
  | refl (o : Outline φ) : Reordered o o
  | trans {a b c : Outline φ} (hab : Reordered a b) (hbc : Reordered b c) : Reordered a c
  /-- The fields of one object are moved. -/
  | move {as bs : List (Text × Outline φ)} (h : as.Perm bs) : Reordered (.object as) (.object bs)
  /-- Within the element type of an array. -/
  | element {a b : Outline φ} (h : Reordered a b) : Reordered (.array a) (.array b)
  /-- Within the type of one field. -/
  | field (before after : List (Text × Outline φ)) (name : Text) {a b : Outline φ}
      (h : Reordered a b) :
      Reordered (.object (before ++ (name, a) :: after)) (.object (before ++ (name, b) :: after))

theorem Reordered.symm {a b : Outline φ} (h : Reordered a b) : Reordered b a := by
  induction h with
  | refl o => exact .refl o
  | trans _ _ ihab ihbc => exact .trans ihbc ihab
  | move h => exact .move h.symm
  | element _ ih => exact .element ih
  | field before after name _ ih => exact .field before after name ih

/-- Reordering within every field. -/
theorem Reordered.related {as bs : List (Text × Outline φ)} (h : Entries.Related Reordered as bs) :
    Reordered (.object as) (.object bs) := by
  refine forall₂_one_by_one (T := fun as bs => Reordered (.object as) (.object bs))
    (fun _ => .refl _) .trans ?_ h
  rintro before after ⟨name, a⟩ ⟨_, b⟩ ⟨rfl, hab⟩
  exact .field before after name hab

theorem reordered_sorted (o : Outline φ) : Reordered o o.sorted := by
  induction o with
  | primitive tag => exact .refl _
  | array element ih => exact .element ih
  | object fields ih =>
    have within : Entries.Related Reordered fields (fields.map fun f => (f.1, f.2.sorted)) :=
      List.forall₂_map_right_iff.2 (List.forall₂_same.2 fun f hf => ⟨rfl, ih f hf⟩)
    rw [sorted_object]
    exact .trans (.related within) (.move (Entries.sort_perm _).symm)
  | stray value => exact .refl _

/-- A step keeps the sorted form, and it keeps names distinct, so that the next step does too. -/
theorem Reordered.sorted_eq {a b : Outline φ} (h : Reordered a b) (distinct : a.Distinct) :
    a.sorted = b.sorted ∧ b.Distinct := by
  -- By induction on the steps; distinct names are what the next step needs of this one.
  induction h with
  | refl o => exact ⟨rfl, distinct⟩
  | trans _ _ ihab ihbc =>
    obtain ⟨hab, distinctB⟩ := ihab distinct
    obtain ⟨hbc, distinctC⟩ := ihbc distinctB
    exact ⟨hab.trans hbc, distinctC⟩
  | @move as bs h =>
    constructor
    · rw [sorted_object, sorted_object]
      congr 1
      apply Entries.sort_eq_of_perm (h.map _)
      rw [Entries.names_map]
      exact distinct.nodup
    · exact .object ((h.map Prod.fst).nodup_iff.1 distinct.nodup) fun f hf =>
        distinct.field (h.mem_iff.2 hf)
  | element _ ih =>
    obtain ⟨heq, distinctB⟩ := ih distinct.element
    exact ⟨by rw [sorted, sorted, heq], .array distinctB⟩
  | @field before after name a b _ ih =>
    have here : (name, a) ∈ before ++ (name, a) :: after := by simp
    obtain ⟨heq, distinctB⟩ := ih (distinct.field here)
    constructor
    · simp only [sorted_object, List.map_append, List.map_cons, heq]
    · have nodup := distinct.nodup
      simp only [Entries.names_append, Entries.names_cons] at nodup
      apply Distinct.object (by simpa using nodup)
      intro f hf
      rcases List.mem_append.1 hf with hf | hf
      · exact distinct.field (List.mem_append_left _ hf)
      · rcases List.mem_cons.1 hf with rfl | hf
        · exact distinctB
        · exact distinct.field (List.mem_append_right _ (List.mem_cons_of_mem _ hf))

theorem reordered_iff {a b : Outline φ} (ha : a.Distinct) :
    Reordered a b ↔ a.sorted = b.sorted := by
  constructor
  · exact fun h => (h.sorted_eq ha).1
  · intro h
    have hb := (reordered_sorted b).symm
    rw [← h] at hb
    exact .trans (reordered_sorted a) hb

end SampleTypes.Outline
