import SampleTypes.Proofs.Descriptor.Shape
import SampleTypes.Proofs.Inference.Containers

/-!
# The types of lists

A list or a tuple whose items have types that are the same up to the order of fields has the type
of its first item for their common type; if two of its items differ in more than that, the type of
the items is mixed. Both halves rest on the keys of shapes, which are compared with that of the
first item only.

## Main definitions

* `Sample.Differ` — two values have types that no reordering of fields makes the same
* `Descriptor.byShape` — the first type of each shape

## Main results

* `Descriptor.ofItems_eq_byShape` — the type of a list from its types by shape
* `infer_sequence` — a list has its type from those of its items
* `infer_array` — which list has which type
-/

namespace SampleTypes

/-- Two values have types that differ in more than the order of fields. -/
def Sample.Differ (s t : Sample) : Prop :=
  ∃ d e, infer s = .ok d ∧ infer t = .ok e ∧ ¬ Outline.Reordered d e

namespace Descriptor

variable {first : Descriptor} {rest : List Descriptor}

/-- Items of one shape have the type of the first. -/
theorem ofItems_eq_first (distinct : ∀ d ∈ first :: rest, Outline.Distinct d)
    (same : ∀ d ∈ rest, Outline.Reordered first d) : ofItems (first :: rest) = .array first := by
  have firstDistinct := distinct first (List.mem_cons_self ..)
  have keys : (rest.all fun e => first.shapeKey == e.shapeKey) = true := by
    rw [List.all_eq_true]
    intro d hd
    rw [beq_iff_eq]
    exact (shapeKey_eq_iff_of_distinct firstDistinct (distinct d (List.mem_cons_of_mem _ hd))).2
      (same d hd)
  rw [ofItems, if_pos keys]

/-- An item of another shape than the first makes the type of the items mixed. -/
theorem ofItems_eq_mixed (distinct : ∀ d ∈ first :: rest, Outline.Distinct d) {d : Descriptor}
    (hd : d ∈ rest) (differs : ¬ Outline.Reordered first d) :
    ofItems (first :: rest) = .array (.primitive .mixed) := by
  have firstDistinct := distinct first (List.mem_cons_self ..)
  have keys : ¬ (rest.all fun e => first.shapeKey == e.shapeKey) = true := by
    intro keys
    have key := beq_iff_eq.1 (List.all_eq_true.1 keys d hd)
    exact differs ((shapeKey_eq_iff_of_distinct firstDistinct
      (distinct d (List.mem_cons_of_mem _ hd))).1 key)
  rw [ofItems, if_neg keys]

/-! ## Keeping the first type of each shape -/

/-- One more item: its type is kept if its shape is new. -/
def keepShape (kept : Entries Descriptor) (d : Descriptor) : Entries Descriptor :=
  if d.shapeKey ∈ kept.names then kept else kept ++ [(d.shapeKey, d)]

/-- The first type of each shape, under the key of the shape. -/
def byShape (types : List Descriptor) : Entries Descriptor := types.foldl keepShape []

/-- The type of the first item stays first, and is alone as long as all items have its key. -/
theorem foldl_keepShape (first : Descriptor) (others : Entries Descriptor)
    (types : List Descriptor) :
    ∃ others', types.foldl keepShape ((first.shapeKey, first) :: others) =
        (first.shapeKey, first) :: others' ∧
      (others' = [] ↔ others = [] ∧ ∀ d ∈ types, first.shapeKey = d.shapeKey) := by
  -- What is kept begins with the first type throughout; only the others grow.
  induction types generalizing others with
  | nil => exact ⟨others, rfl, by simp⟩
  | cons d rest ih =>
    rw [List.foldl_cons, keepShape]
    split_ifs with known
    · obtain ⟨others', whole, alone⟩ := ih others
      refine ⟨others', whole, alone.trans ?_⟩
      constructor
      · rintro ⟨rfl, same⟩
        have first := List.mem_singleton.1 known
        exact ⟨rfl, by simpa [first] using same⟩
      · rintro ⟨rfl, same⟩
        exact ⟨rfl, fun e he => same e (List.mem_cons_of_mem _ he)⟩
    · obtain ⟨others', whole, alone⟩ := ih (others ++ [(d.shapeKey, d)])
      refine ⟨others', whole, alone.trans ?_⟩
      constructor
      · rintro ⟨none, _⟩
        exact absurd none (by simp)
      · rintro ⟨rfl, same⟩
        exact absurd (List.mem_singleton.2 (same d (List.mem_cons_self ..)).symm) known

/-- Comparing every item with the first comes to the same as counting the shapes. -/
theorem ofItems_eq_byShape (types : List Descriptor) :
    ofItems types = .array (match byShape types with
      | [] => .primitive .unknown
      | [(_, d)] => d
      | _ => .primitive .mixed) := by
  cases types with
  | nil => rfl
  | cons first rest =>
    obtain ⟨others, whole, alone⟩ := foldl_keepShape first [] rest
    have start : byShape (first :: rest) = (first.shapeKey, first) :: others := whole
    have keys : (rest.all fun e => first.shapeKey == e.shapeKey) = true ↔ others = [] := by
      simp [alone]
    rw [ofItems, start]
    cases others with
    | nil => simp only [keys.2 rfl, if_true]
    | cons other others =>
      have some : ¬ (rest.all fun e => first.shapeKey == e.shapeKey) = true := fun all =>
        absurd (keys.1 all) (by simp)
      simp only [if_neg some]

end Descriptor

/-! ## From the items to the list -/

theorem exists_types {items : List Sample} (h : ∀ s ∈ items, ∃ d, infer s = .ok d) :
    ∃ types, List.Forall₂ (fun s d => infer s = .ok d) items types :=
  exists_forall₂ h

section

variable {kind : SequenceKind} {n : Nature}

/-- A list or tuple that is not empty has its type from those of its items. -/
theorem infer_sequence (hk : kind ≠ .run) (callable : n.callable = false)
    (promise : n.promise = false) (truth : n.truth ≠ some false) {first : Sample}
    {rest : List Sample} {types : List Descriptor}
    (found : List.Forall₂ (fun s d => infer s = .ok d) (first :: rest) types) :
    infer (.sequence kind n (first :: rest)) = .ok (.ofItems types) := by
  have filled : first :: rest = [] → n.truth ≠ some true := fun none => nomatch none
  exact (infer_sequence_iff hk (n.isOpen_iff.2 ⟨callable, promise, truth⟩) _ _).2
    ⟨filled, types, found, rfl⟩

theorem infer_sequence_nil (hk : kind ≠ .run) (callable : n.callable = false)
    (promise : n.promise = false) :
    infer (.sequence kind n []) =
      if n.truth = some true then .error .noItem else .ok (.array (.primitive .unknown)) := by
  have parts : (Sample.sequence kind n []).parts = [] := by
    cases kind <;> simp [Sample.parts, Sample.numbered]
  have barren : (Sample.sequence kind n []).isBarren = true ↔ n.truth = some true := by
    have agrees : n.truth = some true → n.truth ≠ some false := fun h => by simp [h]
    cases kind with
    | run => exact absurd rfl hk
    | _ => simpa [Sample.isBarren, Nature.isOpen, callable, promise] using agrees
  rw [infer, inferAt_sequence hk callable promise, parts]
  simp only [barren]
  rfl

/-- What the type of a list or tuple is. If it is empty, nothing is known of the items, unless it
counts as true all the same. If it is not, does not count as false and each item has a type, then
the type of the items is mixed exactly if two of them differ in more than the order of fields, and
else it is that of the first item as it stands. -/
theorem infer_array (hk : kind ≠ .run) (callable : n.callable = false)
    (promise : n.promise = false) :
    (n.truth ≠ some true → infer (.sequence kind n []) = .ok (.array (.primitive .unknown))) ∧
      ∀ (first : Sample) (rest : List Sample), n.truth ≠ some false →
        (∀ s ∈ first :: rest, ∃ d, infer s = .ok d) →
        (infer (.sequence kind n (first :: rest)) = .ok (.array (.primitive .mixed)) ↔
          ∃ s ∈ first :: rest, ∃ t ∈ first :: rest, s.Differ t) ∧
        ((¬ ∃ s ∈ first :: rest, ∃ t ∈ first :: rest, s.Differ t) →
          ∃ d, infer first = .ok d ∧
            infer (.sequence kind n (first :: rest)) = .ok (.array d)) := by
  refine ⟨fun plain => ?_, fun first rest truth inferred => ?_⟩
  · rw [infer_sequence_nil hk callable promise, if_neg plain]
  obtain ⟨types, found⟩ := exists_types inferred
  obtain ⟨d, others, hfirst, hothers, rfl⟩ := List.forall₂_cons_left_iff.1 found
  have distinct : ∀ e ∈ d :: others, Outline.Distinct e := fun e he => by
    obtain ⟨s, _, hs⟩ := exists_of_mem_right found he
    exact infer_distinct hs
  have whole := infer_sequence hk callable promise truth found
  by_cases same : ∀ e ∈ others, Outline.Reordered d e
  · rw [Descriptor.ofItems_eq_first distinct same] at whole
    -- All items have the shape of the first, so no two of them differ.
    have agree : ¬ ∃ s ∈ first :: rest, ∃ t ∈ first :: rest, s.Differ t := by
      rintro ⟨s, hs, t, ht, a, b, hsa, htb, differ⟩
      have like : ∀ u ∈ first :: rest, ∀ e, infer u = .ok e → Outline.Reordered d e := by
        intro u hu e hue
        obtain ⟨e', he', hue'⟩ := exists_of_mem_right found.flip hu
        obtain rfl : e' = e := Except.ok.inj (hue'.symm.trans hue)
        rcases List.mem_cons.1 he' with rfl | he'
        · exact .refl _
        · exact same e' he'
      exact differ (.trans (like s hs a hsa).symm (like t ht b htb))
    refine ⟨⟨fun mixed => ?_, fun differ => absurd differ agree⟩, fun _ => ⟨d, hfirst, whole⟩⟩
    -- The type of the first item is not the mixed one, which no value has.
    rw [whole] at mixed
    cases mixed
    exact absurd hfirst (infer_ne_mixed first)
  · -- Some item has another shape than the first, and these two differ.
    obtain ⟨e, he, differs⟩ : ∃ e ∈ others, ¬ Outline.Reordered d e := by simpa using same
    rw [Descriptor.ofItems_eq_mixed distinct he differs] at whole
    obtain ⟨s, hs, hse⟩ := exists_of_mem_right hothers he
    have differ : ∃ s ∈ first :: rest, ∃ t ∈ first :: rest, s.Differ t :=
      ⟨first, List.mem_cons_self .., s, List.mem_cons_of_mem _ hs, d, e, hfirst, hse, differs⟩
    exact ⟨⟨fun _ => differ, fun _ => whole⟩, fun agree => absurd differ agree⟩

/-- Two objects with their fields in either order have the type of the first in a list. -/
theorem infer_array_of_two_orders :
    let a : Sample × Sample := (.ofText (Text.ofString "a"), .ofInt 1)
    let b : Sample × Sample := (.ofText (Text.ofString "b"), .null)
    infer (.list [.dict [a, b], .dict [b, a]]) =
      .ok (.array (.object [(Text.ofString "a", .primitive .number),
        (Text.ofString "b", .primitive .null)])) := by
  intro a b
  have ab : infer (.dict [a, b]) = .ok (.object [(Text.ofString "a", .primitive .number),
      (Text.ofString "b", .primitive .null)]) := rfl
  have ba : infer (.dict [b, a]) = .ok (.object [(Text.ofString "b", .primitive .null),
      (Text.ofString "a", .primitive .number)]) := rfl
  have inferred : ∀ s ∈ [Sample.dict [a, b], .dict [b, a]], ∃ d, infer s = .ok d := by
    simp [ab, ba]
  have agree : ¬ ∃ s ∈ [Sample.dict [a, b], .dict [b, a]],
      ∃ t ∈ [Sample.dict [a, b], .dict [b, a]], s.Differ t := by
    simp only [List.mem_cons, List.not_mem_nil, or_false]
    rintro ⟨s, rfl | rfl, t, rfl | rfl, d, e, hd, he, differ⟩ <;>
      simp only [ab, ba, Except.ok.injEq] at hd he <;> subst hd he
    · exact differ (.refl _)
    · exact differ (.move (.swap ..))
    · exact differ (.move (.swap ..))
    · exact differ (.refl _)
  have array := @infer_array .list (Nature.named "list") (by decide) rfl rfl
  obtain ⟨d, hd, whole⟩ := (array.2 _ _ nofun inferred).2 agree
  rw [ab] at hd
  cases hd
  exact whole

end

end SampleTypes
