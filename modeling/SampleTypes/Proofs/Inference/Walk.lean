import Mathlib.Tactic.SplitIfs
import SampleTypes.Inference

/-!
# The walk of inference

Inference asks one question of every value that it comes to: whether it stops there. Where it does
not, it goes through the parts of the value from first to last, each at the end of a path one step
longer, and puts the types of the parts together. The parts are the items of an open list or tuple
and the values of an open mapping; no other value has any. It stops at a value that can be called,
and at an open list or tuple that counts as true by its nature and has no item all the same.

## Main definitions

* `Sample.isOffender`, `Sample.isBarren` — the values at which inference stops
* `Sample.parts` — what inference looks at within a value, with the steps to it
* `Sample.typeFromParts` — the type of a value, from those of its parts
* `inferParts` — the types of parts in turn

## Main results

* `inferAt_eq` — all that inference does with a value
* `Sample.byParts` — induction along the walk
-/

namespace SampleTypes

/-- Inference looks into a container that cannot be called, promises nothing and does not count as
false by its nature. -/
def Nature.isOpen (n : Nature) : Bool := !n.callable && !n.promise && n.truth != some false

namespace Sample

/-- The values whose type is known before it is asked whether they can be called: the markers of
nothing, texts, truth values, numbers and dates. -/
def isScalar : Sample → Bool
  | .undefined => true
  | .null => true
  | .bool _ => true
  | .text _ _ => true
  | .int _ _ => true
  | .float _ _ => true
  | .number _ => true
  | .date _ => true
  | .sequence _ _ _ => false
  | .mapping _ _ _ => false
  | .set _ => false
  | .other _ => false

/-- The values that can be called and are no scalars. -/
def isOffender (s : Sample) : Bool := s.nature.callable && !s.isScalar

/-- The lists and tuples that are looked into, count as true by their nature and have no items. -/
def isBarren : Sample → Bool
  | .sequence .run _ _ => false
  | .sequence _ n items => n.isOpen && n.truth == some true && items.isEmpty
  | _ => false

/-- The values at which inference stops. -/
def stops (s : Sample) : Bool := s.isOffender || s.isBarren

/-- Why inference stops at a value that stands at the end of a path. -/
def whyUntyped (path : Path) (s : Sample) : Untyped :=
  if s.isOffender then .unsupported (.found path s.nature) else .noItem

/-- Items with the steps to them, of which the first has the given index. -/
def numbered (index : Nat) : List Sample → List (Step × Sample)
  | [] => []
  | s :: rest => (.index index, s) :: numbered (index + 1) rest

/-- The values of entries with the steps to them. -/
def named (entries : List (Sample × Sample)) : List (Step × Sample) :=
  entries.map fun e => (.name e.1.shown, e.2)

/-- What inference looks at within a value. -/
def parts : Sample → List (Step × Sample)
  | .sequence .run _ _ => []
  | .sequence _ n items => if n.isOpen then numbered 0 items else []
  | .mapping _ n entries => if n.isOpen then named entries else []
  | _ => []

/-- The type of a value whose parts have the given types. -/
def typeFromParts (s : Sample) (types : List Descriptor) : Descriptor :=
  match s with
  | .undefined => .primitive .undefined
  | .null => .primitive .null
  | .text _ _ => .primitive .string
  | .bool _ => .primitive .boolean
  | .int _ _ => .primitive .number
  | .float _ _ => .primitive .number
  | .number _ => .primitive .number
  | .date _ => .primitive .date
  | .sequence kind n _ =>
    if n.promise then .primitive .promise
    else match kind with
      | .run => .primitive .unknown
      | _ => .ofItems types
  | .mapping _ n entries =>
    if n.promise then .primitive .promise
    else .object (Entries.ofPairs ((entries.map fun e => e.1.shown).zip types))
  | .set n => .primitive (if n.promise then .promise else .unknown)
  | .other n => .primitive (if n.promise then .promise else .unknown)

end Sample

/-- The types of parts of a value that stands at the end of a path. -/
def inferParts (path : Path) : List (Step × Sample) → Except Untyped (List Descriptor)
  | [] => .ok []
  | (step, s) :: rest => do
    let d ← inferAt (path ++ [step]) s
    let ds ← inferParts path rest
    return d :: ds

theorem inferParts_eq_mapM (path : Path) (parts : List (Step × Sample)) :
    inferParts path parts = parts.mapM fun p => inferAt (path ++ [p.1]) p.2 := by
  induction parts with
  | nil => rfl
  | cons p rest ih => rw [inferParts, List.mapM_cons, ih]

theorem inferItems_eq (path : Path) (index : Nat) (items : List Sample) :
    inferItems path index items = inferParts path (Sample.numbered index items) := by
  induction items generalizing index with
  | nil => rfl
  | cons s rest ih => rw [inferItems, ih, Sample.numbered, inferParts]

theorem inferEntries_eq (path : Path) (entries : List (Sample × Sample)) :
    inferEntries path entries = (inferParts path (Sample.named entries)).map
      fun types => (entries.map fun e => e.1.shown).zip types := by
  induction entries with
  | nil => rfl
  | cons e rest ih =>
    rw [inferEntries, ih]
    change _ = Except.map _ (inferParts path ((.name e.1.shown, e.2) :: Sample.named rest))
    rw [inferParts]
    cases inferAt (path ++ [.name e.1.shown]) e.2 with
    | error _ => rfl
    | ok d => cases inferParts path (Sample.named rest) <;> rfl

section

variable {n : Nature}

/-- A list or tuple that cannot be called and promises nothing is gone through if it counts as true,
and then has to hold something. -/
theorem inferAt_sequence_of_countsTrue {kind : SequenceKind} (hk : kind ≠ .run)
    (callable : n.callable = false) (promise : n.promise = false) (path : Path)
    (items : List Sample) :
    inferAt path (.sequence kind n items) =
      if n.countsTrue items then
        if items.isEmpty then .error .noItem else (inferItems path 0 items).map .ofItems
      else .ok (.ofItems []) := by
  cases kind with
  | run => exact absurd rfl hk
  | _ => simp [inferAt, callable, promise]

/-- A mapping that cannot be called and promises nothing is gone through if it counts as true. -/
theorem inferAt_mapping_of_countsTrue (kind : MappingKind) (callable : n.callable = false)
    (promise : n.promise = false) (path : Path) (entries : List (Sample × Sample)) :
    inferAt path (.mapping kind n entries) =
      if n.countsTrue entries then
        (inferEntries path entries).map fun fields => .object (Entries.ofPairs fields)
      else .ok Descriptor.emptyObject := by
  simp [inferAt, callable, promise]

/-- An open list or tuple is gone through unless it is barren. What is not gone through has the type
of an empty list. -/
theorem inferAt_sequence {kind : SequenceKind} (hk : kind ≠ .run)
    (callable : n.callable = false) (promise : n.promise = false) (path : Path)
    (items : List Sample) :
    inferAt path (.sequence kind n items) =
      if (Sample.sequence kind n items).isBarren then .error .noItem
      else (inferParts path (Sample.sequence kind n items).parts).map .ofItems := by
  have barren : (Sample.sequence kind n items).isBarren =
      (n.truth == some true && items.isEmpty) := by
    cases kind with
    | run => exact absurd rfl hk
    | _ =>
      simp only [Sample.isBarren, Nature.isOpen, callable, promise]
      rcases n.truth with _ | _ | _ <;> rfl
  have parts : (Sample.sequence kind n items).parts =
      if n.truth = some false then [] else Sample.numbered 0 items := by
    cases kind with
    | run => exact absurd rfl hk
    | _ => simp [Sample.parts, Nature.isOpen, callable, promise]
  rw [inferAt_sequence_of_countsTrue hk callable promise, barren, parts, inferItems_eq,
    Nature.countsTrue]
  -- What a container of no special nature counts as follows from its items.
  rcases n.truth with _ | _ | _ <;> cases items <;> rfl

/-- A mapping that is not gone through has the type of an empty one. -/
theorem inferAt_mapping (kind : MappingKind) (callable : n.callable = false)
    (promise : n.promise = false) (path : Path) (entries : List (Sample × Sample)) :
    inferAt path (.mapping kind n entries) =
      (inferParts path (Sample.mapping kind n entries).parts).map fun types =>
        .object (Entries.ofPairs ((entries.map fun e => e.1.shown).zip types)) := by
  have parts : (Sample.mapping kind n entries).parts =
      if n.truth = some false then [] else Sample.named entries := by
    simp [Sample.parts, Nature.isOpen, callable, promise]
  have gone : ((inferEntries path entries).map fun fields =>
      Outline.object (Entries.ofPairs fields)) = (inferParts path (Sample.named entries)).map
        fun types => .object (Entries.ofPairs ((entries.map fun e => e.1.shown).zip types)) := by
    rw [inferEntries_eq]
    cases inferParts path (Sample.named entries) <;> rfl
  have shut (names : List Text) : ((inferParts path []).map fun types =>
      Outline.object (Entries.ofPairs (names.zip types))) = .ok Descriptor.emptyObject := by
    simp [inferParts, Except.map, Descriptor.emptyObject, Entries.ofPairs]
  rw [inferAt_mapping_of_countsTrue kind callable promise, parts, gone, Nature.countsTrue]
  rcases n.truth with _ | _ | _
  · cases entries <;> rfl
  · exact (shut _).symm
  · rfl

end

/-- Inference stops at a value, or takes its type from its parts. -/
theorem inferAt_eq (path : Path) (s : Sample) :
    inferAt path s =
      if s.stops then .error (s.whyUntyped path)
      else (inferParts path s.parts).map s.typeFromParts := by
  cases s with
  | sequence kind n items =>
    have offends : (Sample.sequence kind n items).isOffender = n.callable := Bool.and_true _
    cases callable : n.callable
    · rw [callable] at offends
      cases promise : n.promise
      · by_cases hk : kind = .run
        · subst hk
          simp [inferAt, Sample.stops, Sample.isBarren, Sample.parts, Sample.typeFromParts,
            inferParts, Except.map, callable, promise, offends]
        · have together : (Sample.sequence kind n items).typeFromParts = .ofItems := by
            funext types
            cases kind <;> simp [Sample.typeFromParts, promise] at hk ⊢
          rw [inferAt_sequence hk callable promise, Sample.stops, Sample.whyUntyped, offends,
            together]
          simp
      · cases kind <;>
          simp [inferAt, Sample.stops, Sample.isBarren, Sample.parts, Sample.typeFromParts,
            Nature.isOpen, inferParts, Except.map, callable, promise, offends]
    · cases kind <;>
        simp [inferAt, Sample.stops, Sample.whyUntyped, Sample.nature, callable, offends]
  | mapping kind n entries =>
    have offends : (Sample.mapping kind n entries).isOffender = n.callable := Bool.and_true _
    have stops : (Sample.mapping kind n entries).stops = n.callable := by
      rw [Sample.stops, offends]
      exact Bool.or_false _
    rw [stops, Sample.whyUntyped, offends]
    cases callable : n.callable
    · cases promise : n.promise
      · have together : (Sample.mapping kind n entries).typeFromParts = fun types =>
            .object (Entries.ofPairs ((entries.map fun e => e.1.shown).zip types)) := by
          funext types
          simp [Sample.typeFromParts, promise]
        rw [inferAt_mapping kind callable promise, together]
        rfl
      · simp [inferAt, Sample.parts, Sample.typeFromParts, Nature.isOpen, inferParts, Except.map,
          callable, promise]
    · simp [inferAt, Sample.nature, callable]
  | set n =>
    have offends : (Sample.set n).isOffender = n.callable := Bool.and_true _
    rw [Sample.stops, Sample.whyUntyped, offends, inferAt]
    cases n.callable <;> rfl
  | other n =>
    have offends : (Sample.other n).isOffender = n.callable := Bool.and_true _
    rw [Sample.stops, Sample.whyUntyped, offends, inferAt]
    cases n.callable <;> rfl
  | _ => simp [Sample.stops, Sample.isOffender, Sample.isScalar]; rfl

/-! ## Induction along the walk -/

namespace Sample

theorem mem_of_mem_numbered {p : Step × Sample} {items : List Sample} {index : Nat}
    (h : p ∈ numbered index items) : p.2 ∈ items := by
  induction items generalizing index with
  | nil => cases h
  | cons s rest ih =>
    rcases List.mem_cons.1 h with rfl | h
    · exact List.mem_cons_self ..
    · exact List.mem_cons_of_mem _ (ih h)

/-- A value with parts is a sequence or a mapping. -/
theorem parts_cases {s : Sample} {p : Step × Sample} (h : p ∈ s.parts) :
    (∃ kind n items, s = .sequence kind n items ∧ p ∈ numbered 0 items) ∨
      ∃ kind n entries, s = .mapping kind n entries ∧ p ∈ named entries := by
  cases s with
  | sequence kind n items =>
    refine .inl ⟨kind, n, items, rfl, ?_⟩
    cases kind with
    | run => cases h
    | _ =>
      simp only [parts] at h
      split_ifs at h
      · exact h
      · cases h
  | mapping kind n entries =>
    refine .inr ⟨kind, n, entries, rfl, ?_⟩
    simp only [parts] at h
    split_ifs at h
    · exact h
    · cases h
  | _ => cases h

theorem sizeOf_part_lt {s : Sample} {p : Step × Sample} (h : p ∈ s.parts) :
    sizeOf p.2 < sizeOf s := by
  rcases parts_cases h with ⟨kind, n, items, rfl, hp⟩ | ⟨kind, n, entries, rfl, hp⟩
  · have := List.sizeOf_lt_of_mem (mem_of_mem_numbered hp)
    simp only [sequence.sizeOf_spec]
    omega
  · obtain ⟨⟨key, s⟩, he, rfl⟩ := List.mem_map.1 hp
    have := List.sizeOf_lt_of_mem he
    simp only [mapping.sizeOf_spec, Prod.mk.sizeOf_spec] at this ⊢
    omega

/-- Induction along the walk: what holds of a value if it holds of its parts. -/
@[elab_as_elim]
theorem byParts {motive : Sample → Prop} (h : ∀ s, (∀ p ∈ s.parts, motive p.2) → motive s)
    (s : Sample) : motive s :=
  h s fun p _ => byParts h p.2
termination_by sizeOf s
decreasing_by exact sizeOf_part_lt ‹_›

end Sample

end SampleTypes
