import SampleTypes.Proofs.Inference.Chunks

/-!
# What of a container makes its type

Inference sees two things of a list, a tuple or a mapping: what it holds, and what it counts as. One
that counts as false is taken for empty, whatever it holds. One that counts as true is gone through,
and a list or tuple that holds nothing all the same has no type. So two containers that hold the
same have the same type, or fail for the same value, if their natures say the same about that; apart
from it neither the class of a container nor its kind makes a difference.

## Main definitions

* `Nature.counted` — what counts as the contents of a container

## Main results

* `infer_sequence_eq_list`, `infer_mapping_eq_dict` — a container has the type of the plain one that
  holds what counts
* `infer_by_contents_iff` — when the contents alone make the type, and which containers have the
  types of the empty ones
* `infer_of_false_containers` — containers whose contents do not
-/

namespace SampleTypes

/-- What counts as the contents of a container of some nature: nothing if it counts as false. -/
def Nature.counted {α : Type} (n : Nature) (contents : List α) : List α :=
  if n.truth = some false then [] else contents

section

variable {n : Nature}

theorem Nature.mem_counted_iff {α : Type} {contents : List α} {a : α} :
    a ∈ n.counted contents ↔ n.truth ≠ some false ∧ a ∈ contents := by
  rw [counted]
  split_ifs with isFalse
  · simp [isFalse]
  · simp [isFalse]

theorem Nature.counted_eq_nil_iff {α : Type} {contents : List α} :
    n.counted contents = [] ↔ n.truth = some false ∨ contents = [] := by
  rw [counted]
  split_ifs with isFalse
  · simp [isFalse]
  · simp [isFalse]

theorem Nature.countsTrue_eq_false_iff {α : Type} {contents : List α} :
    n.countsTrue contents = false ↔
      n.truth = some false ∨ n.truth ≠ some true ∧ contents = [] := by
  rw [countsTrue]
  rcases n.truth with _ | _ | _ <;> simp

/-! ## Plain containers -/

theorem infer_list_eq (items : List Sample) :
    infer (.list items) = (inferItems [] 0 items).map .ofItems := by
  cases items <;> rfl

/-- A list or tuple has the type of a plain list, or fails like one, unless it counts as true and
has no items. -/
theorem infer_sequence_eq_list {kind : SequenceKind} (hk : kind ≠ .run)
    (callable : n.callable = false) (promise : n.promise = false) (items : List Sample) :
    infer (.sequence kind n items) =
      if n.truth = some true ∧ items = [] then .error .noItem
      else infer (.list (n.counted items)) := by
  rw [infer, inferAt_sequence_of_countsTrue hk callable promise, infer_list_eq, Nature.countsTrue,
    Nature.counted]
  rcases n.truth with _ | _ | _
  · cases items <;> rfl
  · rfl
  · cases items <;> rfl

/-- A mapping has the type of a plain dictionary, or fails like one. -/
theorem infer_mapping_eq_dict (kind : MappingKind) (callable : n.callable = false)
    (promise : n.promise = false) (entries : List (Sample × Sample)) :
    infer (.mapping kind n entries) =
      infer (.mapping .dict (Nature.named "dict") (n.counted entries)) := by
  rw [infer, infer, inferAt_mapping_of_countsTrue kind callable promise,
    inferAt_mapping_of_countsTrue .dict rfl rfl, Nature.countsTrue, Nature.counted]
  -- An entry more or less makes no difference to what a plain dictionary is gone through for.
  rcases n.truth with _ | _ | _
  · rfl
  · rfl
  · cases entries <;> rfl

/-! ## The types of empty containers -/

/-- Items of which nothing is known make a list of which nothing is known. -/
theorem Descriptor.ofItems_eq_unknown_iff {types : List Descriptor} :
    ofItems types = .array (.primitive .unknown) ↔ ∀ d ∈ types, d = .primitive .unknown := by
  cases types with
  | nil => exact iff_of_true rfl nofun
  | cons first rest =>
    rw [ofItems_cons, Outline.array.injEq, List.forall_mem_cons]
    constructor
    · intro whole
      split_ifs at whole with uniform
      · -- A type with the key of the unknown one is the unknown one.
        subst whole
        exact ⟨rfl, fun d hd => eq_primitive_of_shapeKey_eq (uniform d hd).symm⟩
      · cases whole
    · rintro ⟨rfl, others⟩
      have uniform : Uniform (.primitive .unknown) rest := fun d hd => by rw [others d hd]
      rw [if_pos uniform]

theorem infer_list_eq_unknown_iff {items : List Sample} :
    infer (.list items) = .ok (.array (.primitive .unknown)) ↔
      ∀ s ∈ items, infer s = .ok (.primitive .unknown) := by
  rw [Sample.list, infer_sequence_iff_of_filled (by decide) (by decide) (fun _ => by decide)]
  constructor
  · rintro ⟨types, found, whole⟩ s hs
    obtain ⟨d, hd, inferred⟩ := exists_of_mem_right found.flip hs
    rw [inferred, Descriptor.ofItems_eq_unknown_iff.1 whole d hd]
  · intro unknown
    refine ⟨items.map fun _ => .primitive .unknown, ?_, ?_⟩
    · exact List.forall₂_map_right_iff.2 (List.forall₂_same.2 unknown)
    · refine Descriptor.ofItems_eq_unknown_iff.2 fun d hd => ?_
      obtain ⟨_, -, rfl⟩ := List.mem_map.1 hd
      rfl

theorem infer_dict_eq_empty_iff {entries : List (Sample × Sample)} :
    infer (.mapping .dict (Nature.named "dict") entries) = .ok Descriptor.emptyObject ↔
      entries = [] := by
  constructor
  · intro h
    obtain ⟨fields, found, whole⟩ := (infer_mapping_iff (by decide) entries _).1 h
    have none : Entries.merged fields = [] := Outline.object.inj whole
    -- Merging keeps a field for the first entry.
    cases found with
    | nil => rfl
    | cons => rw [Entries.merged] at none; cases none
  · rintro rfl
    rfl

/-- A list or tuple has the type of an empty one if it counts as false, or if it has items and
nothing is known of any. -/
theorem infer_sequence_eq_unknown_iff {kind : SequenceKind} (hk : kind ≠ .run)
    (callable : n.callable = false) (promise : n.promise = false) (items : List Sample) :
    infer (.sequence kind n items) = .ok (.array (.primitive .unknown)) ↔
      n.countsTrue items = false ∨
        items ≠ [] ∧ ∀ s ∈ items, infer s = .ok (.primitive .unknown) := by
  rw [infer_sequence_eq_list hk callable promise, Nature.countsTrue_eq_false_iff]
  split_ifs with barren
  · simp [barren]
  · rw [infer_list_eq_unknown_iff]
    simp only [Nature.mem_counted_iff, and_imp]
    by_cases none : items = []
    · subst none
      have plain : n.truth ≠ some true := fun isTrue => barren ⟨isTrue, rfl⟩
      simp [plain]
    · by_cases isFalse : n.truth = some false <;> simp [isFalse, none]

/-- A mapping has the type of an empty one if it counts as false, or if it has no entry. -/
theorem infer_mapping_eq_empty_iff (kind : MappingKind) (callable : n.callable = false)
    (promise : n.promise = false) (entries : List (Sample × Sample)) :
    infer (.mapping kind n entries) = .ok Descriptor.emptyObject ↔
      n.truth = some false ∨ entries = [] := by
  rw [infer_mapping_eq_dict kind callable promise, infer_dict_eq_empty_iff,
    Nature.counted_eq_nil_iff]

/-- Whether a list or tuple has no type for want of items tells whether it counts as true. -/
theorem infer_sequence_nil_eq_noItem_iff {kind : SequenceKind} (hk : kind ≠ .run)
    (callable : n.callable = false) (promise : n.promise = false) :
    infer (.sequence kind n []) = .error .noItem ↔ n.truth = some true := by
  rw [infer_sequence_nil hk callable promise]
  split_ifs with isTrue
  · exact iff_of_true rfl isTrue
  · exact iff_of_false nofun isTrue

end

/-! ## Contents alone -/

/-- What of a container makes its type, or the error that it fails with. Two natures of lists and
tuples that cannot be called and promise nothing give the same wherever the items are the same,
whichever of the two is a list and which a tuple, exactly if they say the same about what they count
as: true, false, or what follows from the items. Two natures of mappings do so exactly if both say
false or neither does. A list or tuple has the type of an empty one exactly if it counts as false,
or has items of none of which anything is known; one without items has no type exactly if its nature
says true. A mapping has the type of an empty one exactly if its nature says false or it has no
entry. -/
theorem infer_by_contents_iff {n m : Nature} (hn : n.callable = false ∧ n.promise = false)
    (hm : m.callable = false ∧ m.promise = false) :
    ((∀ kind kind' : SequenceKind, kind ≠ .run → kind' ≠ .run → ∀ items,
        infer (.sequence kind n items) = infer (.sequence kind' m items)) ↔ n.truth = m.truth) ∧
    ((∀ (kind kind' : MappingKind) (entries : List (Sample × Sample)),
        infer (.mapping kind n entries) = infer (.mapping kind' m entries)) ↔
      (n.truth = some false ↔ m.truth = some false)) ∧
    (∀ kind : SequenceKind, kind ≠ .run → ∀ items,
      infer (.sequence kind n items) = .ok (.array (.primitive .unknown)) ↔
        n.countsTrue items = false ∨
          items ≠ [] ∧ ∀ s ∈ items, infer s = .ok (.primitive .unknown)) ∧
    (∀ kind : SequenceKind, kind ≠ .run →
      (infer (.sequence kind n []) = .error .noItem ↔ n.truth = some true)) ∧
    ∀ (kind : MappingKind) (entries : List (Sample × Sample)),
      infer (.mapping kind n entries) = .ok Descriptor.emptyObject ↔
        n.truth = some false ∨ entries = [] := by
  obtain ⟨callable, promise⟩ := hn
  obtain ⟨callable', promise'⟩ := hm
  refine ⟨⟨fun same => ?_, fun agree kind kind' hk hk' items => ?_⟩,
    ⟨fun same => ?_, fun agree kind kind' entries => ?_⟩,
    fun kind hk => infer_sequence_eq_unknown_iff hk callable promise,
    fun kind hk => infer_sequence_nil_eq_noItem_iff hk callable promise,
    fun kind => infer_mapping_eq_empty_iff kind callable promise⟩
  · -- A list with a null in it tells whether a nature says false, and an empty one whether it says
    -- true.
    have list : SequenceKind.list ≠ .run := by decide
    have saysFalse {k : Nature} (hc : k.callable = false) (hp : k.promise = false) :
        infer (.sequence .list k [.null]) = .ok (.array (.primitive .unknown)) ↔
          k.truth = some false := by
      have known : ¬ ∀ s ∈ [Sample.null], infer s = .ok (.primitive .unknown) :=
        fun unknown => nomatch unknown _ (List.mem_singleton_self _)
      rw [infer_sequence_eq_unknown_iff list hc hp, or_iff_left (mt And.right known),
        Nature.countsTrue_eq_false_iff, or_iff_left (mt And.right (List.cons_ne_nil _ _))]
    have agreeFalse : n.truth = some false ↔ m.truth = some false := by
      rw [← saysFalse callable promise, ← saysFalse callable' promise', same .list .list list list]
    have agreeTrue : n.truth = some true ↔ m.truth = some true := by
      rw [← infer_sequence_nil_eq_noItem_iff list callable promise,
        ← infer_sequence_nil_eq_noItem_iff list callable' promise', same .list .list list list]
    refine Option.ext fun b => ?_
    cases b with
    | false => exact agreeFalse
    | true => exact agreeTrue
  · rw [infer_sequence_eq_list hk callable promise, infer_sequence_eq_list hk' callable' promise',
      Nature.counted, agree, Nature.counted]
  · have here := infer_mapping_eq_empty_iff .dict callable promise [(.null, .null)]
    have there := infer_mapping_eq_empty_iff .dict callable' promise' [(.null, .null)]
    rw [or_iff_left (List.cons_ne_nil _ _)] at here there
    rw [← here, ← there, same .dict .dict]
  · rw [infer_mapping_eq_dict kind callable promise, infer_mapping_eq_dict kind' callable' promise',
      Nature.counted, Nature.counted]
    simp only [agree]

/-- A tuple of a class of its own has the type of a plain list with the same items, and fails for
the same item. -/
theorem infer_by_contents_of_row :
    let row : Nature := Nature.named "Row"
    let function : Sample := .other { Nature.named "function" with callable := true }
    (∀ items, infer (.sequence .tuple row items) = infer (.list items)) ∧
      infer (.sequence .tuple row [.ofInt 1, .ofText []]) = .ok (.array (.primitive .mixed)) ∧
      infer (.sequence .tuple row [.null, function]) =
        .error (.unsupported ⟨none, [.index 1], Text.ofString "function"⟩) := by
  intro row function
  have whole := infer_by_contents_iff (n := row) (m := Nature.named "list") ⟨rfl, rfl⟩ ⟨rfl, rfl⟩
  have plain := whole.1.2 rfl .tuple .list (by decide) (by decide)
  refine ⟨plain, ?_, ?_⟩
  · rw [plain]
    rfl
  · rw [plain]
    rfl

/-- A list and a mapping that count as false have the types of empty ones although they hold
something, and a list hides a value that can be called. A list that counts as true has no type if it
holds nothing. Plain containers that hold the same do none of this. -/
theorem infer_of_false_containers :
    let hollow : Nature := { Nature.named "Thing" with truth := some false }
    let truthy : Nature := { Nature.named "Thing" with truth := some true }
    let function : Sample := .other { Nature.named "function" with callable := true }
    let entry : Sample × Sample := (.ofText (Text.ofString "k"), .ofInt 1)
    infer (.sequence .list hollow [.ofInt 1]) = .ok (.array (.primitive .unknown)) ∧
      infer (.list [.ofInt 1]) = .ok (.array (.primitive .number)) ∧
      infer (.mapping .dict hollow [entry]) = .ok Descriptor.emptyObject ∧
      infer (.dict [entry]) = .ok (.object [(Text.ofString "k", .primitive .number)]) ∧
      infer (.sequence .list hollow [function]) = .ok (.array (.primitive .unknown)) ∧
      infer (.list [function]) =
        .error (.unsupported ⟨none, [.index 0], Text.ofString "function"⟩) ∧
      infer (.sequence .list truthy []) = .error .noItem ∧
      infer (.list []) = .ok (.array (.primitive .unknown)) :=
  ⟨rfl, rfl, rfl, rfl, rfl, rfl, rfl, rfl⟩

end SampleTypes
