import SampleTypes.Proofs.Inference.Arrays
import SampleTypes.Proofs.Stages

/-!
# The types of long lists

The type of a list follows from the types of its chunks: chunks of the same shape have the type of
the first of them together, and all others are mixed. That is an operation on the types of two
chunks, so a list may be taken apart into chunks, and these again, in any way, as long as no chunk
is empty.

## Main definitions

* `Descriptor.join` — the type of two chunks one after the other, from the types of both
* `Chunks` — a list with the chunks that it is taken apart into
* `Chunks.type` — its type, computed chunk by chunk

## Main results

* `Descriptor.ofItems_append` — the types of two chunks are joined
* `Chunks.type_eq_ok_iff` — how a list is taken apart makes no difference for its type
* `infer_append` — both, as laws of inference
-/

namespace SampleTypes

namespace Descriptor

/-- The type of two lists one after the other, if neither is empty. -/
def join (d e : Descriptor) : Descriptor :=
  if d.sameShape e then d else .array (.primitive .mixed)

/-! ## Keys of lists and of primitives -/

/-- Lists have the same shape if their items have. -/
theorem sameShape_array_iff {a b : Descriptor} :
    sameShape (.array a) (.array b) = true ↔ a.shapeKey = b.shapeKey := by
  rw [sameShape_iff, shapeKey_eq_iff_sorted, shapeKey_eq_iff_sorted, toJson_array, toJson_array,
    Json.sorted_array, Json.sorted_array]
  simp

/-- A primitive has a shape of its own. -/
theorem eq_primitive_of_shapeKey_eq {d : Descriptor} {tag : Tag}
    (h : d.shapeKey = shapeKey (.primitive tag)) : d = .primitive tag := by
  rw [shapeKey_eq_iff_sorted, toJson_primitive, Json.sorted] at h
  cases d with
  | primitive tag' =>
    rw [toJson_primitive, Json.sorted, Json.text.injEq] at h
    have words := ofText?_text tag'
    rw [h, ofText?_text tag] at words
    rw [Option.some.inj words]
  | array element =>
    rw [toJson_array, Json.sorted_array] at h
    cases h
  | object fields =>
    rw [toJson_object, Json.sorted_object] at h
    cases h
  | stray value => exact value.elim

/-! ## Joining -/

/-- Joining lists compares their items. -/
theorem join_array (a b : Descriptor) :
    join (.array a) (.array b) =
      .array (if a.shapeKey = b.shapeKey then a else .primitive .mixed) := by
  rw [join, apply_ite Outline.array]
  simp only [sameShape_array_iff]

theorem join_array_mixed (a : Descriptor) :
    join (.array a) (.array (.primitive .mixed)) = .array (.primitive .mixed) := by
  rw [join_array]
  split_ifs with same
  · rw [eq_primitive_of_shapeKey_eq same]
  · rfl

/-- All types of a list have the key of the first. -/
def Uniform (first : Descriptor) (rest : List Descriptor) : Prop :=
  ∀ d ∈ rest, first.shapeKey = d.shapeKey

instance (first : Descriptor) (rest : List Descriptor) : Decidable (Uniform first rest) :=
  inferInstanceAs (Decidable (∀ d ∈ rest, first.shapeKey = d.shapeKey))

theorem ofItems_cons (first : Descriptor) (rest : List Descriptor) :
    ofItems (first :: rest) =
      .array (if Uniform first rest then first else .primitive .mixed) := by
  have keys : (rest.all fun e => first.shapeKey == e.shapeKey) = true ↔ Uniform first rest := by
    simp [Uniform]
  simp only [ofItems, keys]

/-- A list of two chunks has one shape if each of them has and their first types agree. -/
theorem uniform_append_iff {first first' : Descriptor} {rest rest' : List Descriptor} :
    Uniform first (rest ++ first' :: rest') ↔
      Uniform first rest ∧ first.shapeKey = first'.shapeKey ∧ Uniform first' rest' := by
  simp only [Uniform, List.forall_mem_append, List.forall_mem_cons]
  refine and_congr_right fun _ => and_congr_right fun same => ?_
  rw [same]

/-- The type of a list of items is joined from those of two chunks of it. -/
theorem ofItems_append {as bs : List Descriptor} (ha : as ≠ []) (hb : bs ≠ []) :
    ofItems (as ++ bs) = (ofItems as).join (ofItems bs) := by
  obtain ⟨a, as, rfl⟩ := List.exists_cons_of_ne_nil ha
  obtain ⟨b, bs, rfl⟩ := List.exists_cons_of_ne_nil hb
  rw [List.cons_append, ofItems_cons, ofItems_cons, ofItems_cons]
  simp only [uniform_append_iff]
  by_cases hbs : Uniform b bs
  · by_cases has : Uniform a as
    · simp only [has, hbs, true_and, and_true, if_true, join_array]
    · -- The first chunk is mixed, and so is every list that it begins.
      simp only [has, hbs, false_and, if_false, if_true, join_array, ite_self]
  · simp only [hbs, and_false, if_false, join_array_mixed]

end Descriptor

/-! ## Chunks of samples -/

section

variable {kind : SequenceKind} {n : Nature}

/-- Two lists one after the other have a type if both have, and it is joined from these. -/
theorem infer_append_iff (hk : kind ≠ .run) (hn : n.isOpen = true) {xs ys : List Sample}
    (hx : xs ≠ []) (hy : ys ≠ []) (c : Descriptor) :
    infer (.sequence kind n (xs ++ ys)) = .ok c ↔
      ∃ d e, infer (.sequence kind n xs) = .ok d ∧ infer (.sequence kind n ys) = .ok e ∧
        d.join e = c := by
  have filled {zs : List Sample} (hz : zs ≠ []) : zs = [] → n.truth ≠ some true :=
    fun none => absurd none hz
  rw [infer_sequence_iff_of_filled hk hn (filled (List.append_ne_nil_of_left_ne_nil hx ys))]
  simp only [infer_sequence_iff_of_filled hk hn (filled hx),
    infer_sequence_iff_of_filled hk hn (filled hy)]
  have nonempty {zs : List Sample} (hz : zs ≠ []) {types : List Descriptor}
      (found : List.Forall₂ (fun s d => infer s = .ok d) zs types) : types ≠ [] := by
    rintro rfl
    exact hz (List.forall₂_nil_right_iff.1 found)
  constructor
  · rintro ⟨types, found, rfl⟩
    have foundX := (List.forall₂_take_append _ xs ys found.flip).flip
    have foundY := (List.forall₂_drop_append _ xs ys found.flip).flip
    refine ⟨_, _, ⟨_, foundX, rfl⟩, ⟨_, foundY, rfl⟩, ?_⟩
    rw [← Descriptor.ofItems_append (nonempty hx foundX) (nonempty hy foundY),
      List.take_append_drop]
  · rintro ⟨_, _, ⟨as, foundX, rfl⟩, ⟨bs, foundY, rfl⟩, rfl⟩
    exact ⟨as ++ bs, List.rel_append foundX foundY,
      Descriptor.ofItems_append (nonempty hx foundX) (nonempty hy foundY)⟩

end

/-- A list with the chunks that it is taken apart into. No chunk is empty. -/
inductive Chunks where
  | chunk (first : Sample) (rest : List Sample)
  | both (left right : Chunks)

namespace Chunks

/-- The items of all chunks in order. -/
def items : Chunks → List Sample
  | chunk first rest => first :: rest
  | both left right => left.items ++ right.items

/-- The type of a list, from those of its chunks. -/
def type (kind : SequenceKind) (n : Nature) : Chunks → Except Untyped Descriptor
  | chunk first rest => infer (.sequence kind n (first :: rest))
  | both left right => do
    let d ← left.type kind n
    let e ← right.type kind n
    return d.join e

theorem items_ne_nil (c : Chunks) : c.items ≠ [] := by
  induction c with
  | chunk first rest => exact List.cons_ne_nil first rest
  | both left right ihl _ => exact fun h => ihl (List.append_eq_nil_iff.1 h).1

/-- However a list is taken apart, its chunks give the type that it has as a whole. -/
theorem type_eq_ok_iff {kind : SequenceKind} {n : Nature} (hk : kind ≠ .run)
    (hn : n.isOpen = true) (c : Chunks) (d : Descriptor) :
    c.type kind n = .ok d ↔ infer (.sequence kind n c.items) = .ok d := by
  -- Along the way in which the list is taken apart; a chunk on its own is a list.
  induction c generalizing d with
  | chunk first rest => exact Iff.rfl
  | both left right ihl ihr =>
    rw [items, infer_append_iff hk hn left.items_ne_nil right.items_ne_nil, type]
    simp only [bind_eq_ok_iff, ihl, ihr, pure, Except.pure, Except.ok.injEq]
    constructor
    · rintro ⟨d, hd, e, he, rfl⟩
      exact ⟨d, e, hd, he, rfl⟩
    · rintro ⟨d, e, hd, he, rfl⟩
      exact ⟨d, hd, e, he, rfl⟩

end Chunks

/-- Two lists one after the other have the type of the first if their types have the same shape, and
mixed items otherwise. So a list can be taken apart in any way, its chunks be typed apart and their
types be joined: a type comes out exactly if the list has one, and it is that of the list. -/
theorem infer_append {kind : SequenceKind} {n : Nature} (hk : kind ≠ .run)
    (hn : n.isOpen = true) :
    (∀ (xs ys : List Sample) (d e : Descriptor), xs ≠ [] → ys ≠ [] →
      infer (.sequence kind n xs) = .ok d → infer (.sequence kind n ys) = .ok e →
      infer (.sequence kind n (xs ++ ys)) =
        .ok (if d.sameShape e then d else .array (.primitive .mixed))) ∧
    ∀ (c : Chunks) (d : Descriptor),
      c.type kind n = .ok d ↔ infer (.sequence kind n c.items) = .ok d :=
  ⟨fun _ _ d e hx hy hd he => (infer_append_iff hk hn hx hy _).2 ⟨d, e, hd, he, rfl⟩,
    Chunks.type_eq_ok_iff hk hn⟩

/-- Two objects with their fields in either order have one type in a list, that of the first; an
object and a number are mixed. -/
theorem infer_append_of_two_orders :
    let a : Sample × Sample := (.ofText (Text.ofString "a"), .ofInt 1)
    let b : Sample × Sample := (.ofText (Text.ofString "b"), .null)
    infer (.list [.dict [a, b], .dict [b, a]]) = infer (.list [.dict [a, b]]) ∧
      infer (.list [.dict [a, b], .ofInt 1]) = .ok (.array (.primitive .mixed)) := by
  intro a b
  have ab : infer (.dict [a, b]) = .ok (.object [(Text.ofString "a", .primitive .number),
      (Text.ofString "b", .primitive .null)]) := rfl
  have ba : infer (.dict [b, a]) = .ok (.object [(Text.ofString "b", .primitive .null),
      (Text.ofString "a", .primitive .number)]) := rfl
  have together := (@infer_append .list (Nature.named "list") (by decide) rfl).1
  constructor
  · have same := (Descriptor.shapeKey_eq_iff_of_distinct (infer_distinct ab)
      (infer_distinct ba)).2 (.move (.swap ..))
    exact (together [.dict [a, b]] [.dict [b, a]] _ _ (by simp) (by simp) rfl rfl).trans
      (congrArg Except.ok (if_pos (Descriptor.sameShape_array_iff.2 same)))
  · refine (together [.dict [a, b]] [.ofInt 1] _ _ (by simp) (by simp) rfl rfl).trans
      (congrArg Except.ok (if_neg fun same => ?_))
    have object := Descriptor.eq_primitive_of_shapeKey_eq (Descriptor.sameShape_array_iff.1 same)
    cases object

end SampleTypes
