import SampleTypes.Proofs.Json.Distinct
import SampleTypes.Proofs.Json.Unique

/-!
# JSON values that differ in the order of members

Two JSON values are reorderings of each other if one becomes the other by moving members within
their objects, at any depth and any number of times; the items of arrays stay where they are, and of
floating-point numbers only the text counts. The compact form of the sorted value decides it, as
long as no object repeats a name.

## Main definitions

* `Json.Reordered` — one value becomes the other by moving members

## Main results

* `Json.Reordered.member?` — what is found under a name is reordered
* `Json.Reordered.sorted_compact_eq` — reorderings have one sorted compact form
* `Json.reordered_iff` — and only they have
-/

namespace SampleTypes

namespace Json

/-- Two values are the same up to the order of the members of their objects, at every depth, where
floating-point numbers are the same if they have the same text. -/
inductive Reordered : Json → Json → Prop
  | refl (j : Json) : Reordered j j
  | trans {i j k : Json} (hij : Reordered i j) (hjk : Reordered j k) : Reordered i k
  | float {x y : Binary64} (h : numbers.write x = numbers.write y) :
      Reordered (.float x) (.float y)
  /-- The members of one object are moved. -/
  | move {as bs : List (Text × Json)} (h : as.Perm bs) : Reordered (.object as) (.object bs)
  /-- Within one item of an array. -/
  | item (before after : List Json) {j k : Json} (h : Reordered j k) :
      Reordered (.array (before ++ j :: after)) (.array (before ++ k :: after))
  /-- Within the value of one member. -/
  | member (before after : List (Text × Json)) (name : Text) {j k : Json} (h : Reordered j k) :
      Reordered (.object (before ++ (name, j) :: after)) (.object (before ++ (name, k) :: after))

variable {j k : Json}

theorem Reordered.symm (h : Reordered j k) : Reordered k j := by
  induction h with
  | refl j => exact .refl j
  | trans _ _ ihij ihjk => exact .trans ihjk ihij
  | float h => exact .float h.symm
  | move h => exact .move h.symm
  | item before after _ ih => exact .item before after ih
  | member before after name _ ih => exact .member before after name ih

theorem Alike.reordered (h : Alike j k) : Reordered j k := by
  induction h with
  | refl j => exact .refl j
  | trans _ _ ihij ihjk => exact .trans ihij ihjk
  | float h => exact .float h
  | item before after _ ih => exact .item before after ih
  | member before after name _ ih => exact .member before after name ih

theorem Reordered.items {as bs : List Json} (h : List.Forall₂ Reordered as bs) :
    Reordered (.array as) (.array bs) :=
  forall₂_one_by_one (T := fun as bs => Reordered (.array as) (.array bs)) (fun _ => .refl _)
    .trans .item h

theorem Reordered.members {as bs : List (Text × Json)} (h : Entries.Related Reordered as bs) :
    Reordered (.object as) (.object bs) := by
  refine forall₂_one_by_one (T := fun as bs => Reordered (.object as) (.object bs))
    (fun _ => .refl _) .trans ?_ h
  rintro before after ⟨name, j⟩ ⟨_, k⟩ ⟨rfl, hjk⟩
  exact .member before after name hjk

theorem reordered_sorted (j : Json) : Reordered j j.sorted := by
  induction j with
  | array items ih =>
    rw [sorted_array]
    exact .items (List.forall₂_map_right_iff.2 (List.forall₂_same.2 ih))
  | object members ih =>
    have within : Entries.Related Reordered members (members.map fun m => (m.1, m.2.sorted)) :=
      List.forall₂_map_right_iff.2 (List.forall₂_same.2 fun m hm => ⟨rfl, ih m hm⟩)
    rw [sorted_object]
    exact .trans (.members within) (.move (Entries.sort_perm _).symm)
  | _ => exact .refl _

theorem Reordered.eq_text {t : Text} (h : Reordered (.text t) k) : k = .text t := by
  obtain ⟨j, hj⟩ : ∃ j, j = Json.text t := ⟨_, rfl⟩
  rw [← hj] at h
  induction h with
  | refl _ => exact hj
  | trans _ _ ihij ihjk => exact ihjk (ihij hj)
  | _ => cases hj

/-! ## The sorted compact form -/

theorem sorted_compact_array (items : List Json) :
    (sorted (.array items)).compact = ofChar '[' ::
      (Text.joinWith [ofChar ','] (items.map fun j => j.sorted.compact) ++ [ofChar ']']) := by
  rw [sorted_array, compact, compactItems_eq_map, List.map_map]
  rfl

theorem sorted_compact_object (members : List (Text × Json)) :
    (sorted (.object members)).compact = ofChar '\x7b' ::
      (Text.joinWith [ofChar ',']
        ((Entries.sort (members.map fun m => (m.1, m.2.sorted.compact))).map
          fun e => string false e.1 ++ ofChar ':' :: e.2) ++ [ofChar '\x7d']) := by
  rw [sorted_object, compact, compactMembers_eq_map, Entries.sort_map,
    Entries.sort_map fun j : Json => j.sorted.compact, List.map_map, List.map_map]
  rfl

/-- A step keeps the sorted compact form, and it keeps names distinct, so that the next step does
too. -/
theorem Reordered.sorted_compact_eq (h : Reordered j k) (distinct : j.Distinct) :
    j.sorted.compact = k.sorted.compact ∧ k.Distinct := by
  induction h with
  | refl j => exact ⟨rfl, distinct⟩
  | trans _ _ ihij ihjk =>
    obtain ⟨hij, distinctJ⟩ := ihij distinct
    obtain ⟨hjk, distinctK⟩ := ihjk distinctJ
    exact ⟨hij.trans hjk, distinctK⟩
  | @float x y h => exact ⟨h, .float y⟩
  | @move as bs h =>
    constructor
    · have nodup : (Entries.names (as.map fun m => (m.1, m.2.sorted.compact))).Nodup := by
        rw [Entries.names_map fun j : Json => j.sorted.compact]
        exact distinct.nodup
      rw [sorted_compact_object, sorted_compact_object, Entries.sort_eq_of_perm (h.map _) nodup]
    · exact .object ((h.map Prod.fst).nodup_iff.1 distinct.nodup) fun m hm =>
        distinct.member (h.mem_iff.2 hm)
  | @item before after j k _ ih =>
    obtain ⟨heq, distinctK⟩ := ih (distinct.item (by simp))
    refine ⟨by simp only [sorted_compact_array, List.map_append, List.map_cons, heq], .array ?_⟩
    intro i hi
    rw [List.mem_append, List.mem_cons] at hi
    rcases hi with hi | rfl | hi
    · exact distinct.item (List.mem_append_left _ hi)
    · exact distinctK
    · exact distinct.item (List.mem_append_right _ (List.mem_cons_of_mem _ hi))
  | @member before after name j k _ ih =>
    have here : (name, j) ∈ before ++ (name, j) :: after := by simp
    obtain ⟨heq, distinctK⟩ := ih (distinct.member here)
    constructor
    · simp only [sorted_compact_object, List.map_append, List.map_cons, heq]
    · have nodup := distinct.nodup
      simp only [Entries.names_append, Entries.names_cons] at nodup
      apply Distinct.object (by simpa using nodup)
      intro m hm
      rw [List.mem_append, List.mem_cons] at hm
      rcases hm with hm | rfl | hm
      · exact distinct.member (List.mem_append_left _ hm)
      · exact distinctK
      · exact distinct.member (List.mem_append_right _ (List.mem_cons_of_mem _ hm))

/-- Values are reorderings of each other exactly if their sorted compact forms are one text. -/
theorem reordered_iff (hj : j.Distinct) :
    Reordered j k ↔ j.sorted.compact = k.sorted.compact := by
  refine ⟨fun h => (h.sorted_compact_eq hj).1, fun h => ?_⟩
  exact .trans (reordered_sorted j)
    (.trans (compact_eq_iff_alike.1 h).reordered (reordered_sorted k).symm)

/-! ## Looking up members -/

/-- What is found under a name is found there after reordering, itself reordered. -/
theorem Reordered.member? (h : Reordered j k) (distinct : j.Distinct) {name : Text} {i : Json}
    (found : j.member? name = some i) : ∃ i', k.member? name = some i' ∧ Reordered i i' := by
  induction h generalizing i with
  | refl j => exact ⟨i, found, .refl i⟩
  | trans hij _ ihij ihjk =>
    obtain ⟨i', found', first⟩ := ihij distinct found
    obtain ⟨i'', found'', second⟩ := ihjk (hij.sorted_compact_eq distinct).2 found'
    exact ⟨i'', found'', .trans first second⟩
  | float _ => cases found
  | move h =>
    rw [Json.member?, Entries.find?_eq_of_perm h distinct.nodup] at found
    exact ⟨i, found, .refl i⟩
  | item => cases found
  | @member before after here j k h _ =>
    have same (es : List (Text × Json)) : Entries.Related Reordered es es :=
      List.forall₂_same.2 fun m _ => ⟨rfl, .refl m.2⟩
    have related : Entries.Related Reordered (before ++ (here, j) :: after)
        (before ++ (here, k) :: after) :=
      List.rel_append (same before) (.cons ⟨rfl, h⟩ (same after))
    have alike := related.find? name
    rw [Json.member?] at found ⊢
    rw [found] at alike
    exact exists_of_rel_some alike

end Json

end SampleTypes
