import SampleTypes.Proofs.Descriptor.Codec

/-!
# The names of types that are built

A type is built by inference, from keys and types, or by reading. The first two merge what falls
under one name, so that no object names a field twice. Reading makes a field of every entry: a
mapping that goes through a key more than once is read as an object that repeats a name. Of such an
object the first type is looked up and the last one is written; in all others looking up and writing
agree.

## Main definitions

* `Sample.keyTexts` — the texts among the keys of a mapping
* `Sample.RepeatsKey` — some mapping in a value has two keys that are one text
* `Descriptor.WrittenAsLookedUp` — a type that is written with the types that are looked up
* `Descriptor.Built` — the types that are built if certain values are read

## Main results

* `Descriptor.ofSample_cases` — what a value has to be to be read as a type
* `Descriptor.distinct_iff_of_ofSample` — which values are read as types that repeat a name
* `Descriptor.toJson_object_length`, `Descriptor.member?_toJson_object` — how many members are
  written, and what is written under a name
* `Descriptor.built_distinct_iff` — when no type that is built repeats a name
-/

namespace SampleTypes

/-! ## Keys that are one text -/

namespace Sample

/-- The texts among the keys of a mapping. -/
def keyTexts (entries : List (Sample × Sample)) : List Text :=
  entries.filterMap fun e => e.1.content?

/-- Some mapping in a value, at any depth, has two keys that are the same text. -/
inductive RepeatsKey : Sample → Prop
  | here {kind : MappingKind} {n : Nature} {entries : List (Sample × Sample)}
      (h : ¬ (keyTexts entries).Nodup) : RepeatsKey (.mapping kind n entries)
  | value {kind : MappingKind} {n : Nature} {entries : List (Sample × Sample)}
      {e : Sample × Sample} (mem : e ∈ entries) (h : RepeatsKey e.2) :
      RepeatsKey (.mapping kind n entries)
  | item {kind : SequenceKind} {n : Nature} {items : List Sample} {s : Sample} (mem : s ∈ items)
      (h : RepeatsKey s) : RepeatsKey (.sequence kind n items)

theorem repeatsKey_mapping_iff {kind : MappingKind} {n : Nature}
    {entries : List (Sample × Sample)} :
    RepeatsKey (.mapping kind n entries) ↔
      ¬ (keyTexts entries).Nodup ∨ ∃ e ∈ entries, e.2.RepeatsKey := by
  constructor
  · intro h
    cases h with
    | here h => exact .inl h
    | value mem h => exact .inr ⟨_, mem, h⟩
  · rintro (h | ⟨e, mem, h⟩)
    · exact .here h
    · exact .value mem h

theorem repeatsKey_sequence_iff {kind : SequenceKind} {n : Nature} {items : List Sample} :
    RepeatsKey (.sequence kind n items) ↔ ∃ s ∈ items, s.RepeatsKey := by
  constructor
  · intro h
    cases h with
    | item mem h => exact ⟨_, mem, h⟩
  · rintro ⟨s, mem, h⟩
    exact .item mem h

end Sample

theorem Outline.distinct_object_iff {φ : Type} {fields : List (Text × Outline φ)} :
    Distinct (.object fields) ↔ (Entries.names fields).Nodup ∧ ∀ f ∈ fields, Distinct f.2 :=
  ⟨fun h => ⟨h.nodup, fun _ => h.field⟩, fun h => .object h.1 h.2⟩

namespace Descriptor

/-! ## Reading -/

/-- An entry is read as a field: its key is the name, and its value is read as the type. -/
def ReadsEntry (e : Sample × Sample) (f : Text × Descriptor) : Prop :=
  e.1.content? = some f.1 ∧ ofSample e.2 = .ok f.2

/-- Reading an entry of a mapping. Its key is looked at first. -/
def readEntry (e : Sample × Sample) : Except FormatError (Text × Descriptor) :=
  match e.1.content? with
  | none => .error (.key e.1.typeName)
  | some name => (ofSample e.2).map (Prod.mk name)

theorem ofEntrySamples_eq_mapM (entries : List (Sample × Sample)) :
    ofEntrySamples entries = entries.mapM readEntry := by
  induction entries with
  | nil => rfl
  | cons e rest ih =>
    rw [ofEntrySamples, List.mapM_cons, readEntry, ← ih]
    cases e.1.content? with
    | none => rfl
    | some name => cases ofSample e.2 <;> rfl

theorem readEntry_eq_ok_iff {e : Sample × Sample} {f : Text × Descriptor} :
    readEntry e = .ok f ↔ ReadsEntry e f := by
  rw [readEntry, ReadsEntry]
  cases e.1.content? with
  | none => simp
  | some name =>
    simp only [map_eq_ok_iff, Option.some.injEq]
    constructor
    · rintro ⟨d, read, rfl⟩
      exact ⟨rfl, read⟩
    · rintro ⟨rfl, read⟩
      exact ⟨f.2, read, rfl⟩

theorem ofEntrySamples_eq_ok_iff {entries : List (Sample × Sample)}
    {fields : List (Text × Descriptor)} :
    ofEntrySamples entries = .ok fields ↔ List.Forall₂ ReadsEntry entries fields := by
  simp only [ofEntrySamples_eq_mapM, mapM_eq_ok_iff, readEntry_eq_ok_iff]

/-- A sequence that is read holds one item. -/
theorem items_of_ofSample {kind : SequenceKind} {n : Nature} {items : List Sample} {d : Descriptor}
    (h : ofSample (.sequence kind n items) = .ok d) : ∃ item, items = [item] := by
  match items, h with
  | [item], _ => exact ⟨item, rfl⟩
  | [], h => cases kind <;> cases h
  | _ :: _ :: _, h => cases kind <;> cases h

/-- What is read as a type is the word of a primitive, a sequence of one item, or a mapping from
texts, and its parts are read as the parts of the type. -/
theorem ofSample_cases {s : Sample} {d : Descriptor} (h : ofSample s = .ok d) :
    (∃ n t tag, s = .text n t ∧ d = .primitive tag) ∨
      (∃ kind n item element, s = .sequence kind n [item] ∧ ofSample item = .ok element ∧
        d = .array element) ∨
      ∃ kind n entries fields, s = .mapping kind n entries ∧
        List.Forall₂ ReadsEntry entries fields ∧ d = .object fields := by
  cases s with
  | text n t =>
    rw [ofSample] at h
    cases found : Tag.ofText? t with
    | none => rw [found] at h; cases h
    | some tag =>
      rw [found] at h
      cases h
      exact .inl ⟨n, t, tag, rfl, rfl⟩
  | sequence kind n items =>
    obtain ⟨item, rfl⟩ := items_of_ofSample h
    rw [ofSample] at h
    obtain ⟨element, read, rfl⟩ := map_eq_ok_iff.1 h
    exact .inr (.inl ⟨kind, n, item, element, rfl, read, rfl⟩)
  | mapping kind n entries =>
    rw [ofSample] at h
    obtain ⟨fields, read, rfl⟩ := map_eq_ok_iff.1 h
    exact .inr (.inr ⟨kind, n, entries, fields, rfl, ofEntrySamples_eq_ok_iff.1 read, rfl⟩)
  | _ => cases h

/-- The names of the fields are the texts of the keys, one for each entry. -/
theorem keyTexts_of_readsEntry {entries : List (Sample × Sample)}
    {fields : List (Text × Descriptor)} (h : List.Forall₂ ReadsEntry entries fields) :
    Sample.keyTexts entries = Entries.names fields := by
  induction h with
  | nil => rfl
  | cons first _ ih =>
    simp only [Sample.keyTexts, List.filterMap_cons, first.1] at ih ⊢
    rw [ih, Entries.names_cons]

/-- A type that is read repeats a name exactly if the value that it is read from repeats a key. -/
theorem distinct_iff_of_ofSample {s : Sample} {d : Descriptor} (h : ofSample s = .ok d) :
    Outline.Distinct d ↔ ¬ s.RepeatsKey := by
  -- Along the type: the value has the same shape, or it would not have been read.
  induction d generalizing s with
  | primitive tag =>
    refine iff_of_true (.primitive tag) fun repeats => ?_
    obtain ⟨n, t, _, rfl, _⟩ | ⟨_, _, _, _, _, _, _⟩ | ⟨_, _, _, _, _, _, _⟩ := ofSample_cases h
    · cases repeats
    · contradiction
    · contradiction
  | array element ih =>
    obtain ⟨_, _, _, _, _⟩ | ⟨kind, n, item, _, rfl, read, same⟩ | ⟨_, _, _, _, _, _, _⟩ :=
      ofSample_cases h
    · contradiction
    · cases same
      have inner : Outline.Distinct (.array element) ↔ Outline.Distinct element :=
        ⟨Outline.Distinct.element, .array⟩
      rw [inner, ih read, Sample.repeatsKey_sequence_iff]
      simp
    · contradiction
  | object fields ih =>
    obtain ⟨_, _, _, _, _⟩ | ⟨_, _, _, _, _, _, _⟩ | ⟨kind, n, entries, _, rfl, read, same⟩ :=
      ofSample_cases h
    · contradiction
    · contradiction
    · cases same
      have values : (∀ f ∈ fields, Outline.Distinct f.2) ↔ ∀ e ∈ entries, ¬ e.2.RepeatsKey := by
        constructor
        · intro distinct e he
          obtain ⟨f, hf, reads⟩ := exists_of_mem_right read.flip he
          exact (ih f hf reads.2).1 (distinct f hf)
        · intro once f hf
          obtain ⟨e, he, reads⟩ := exists_of_mem_right read hf
          exact (ih f hf reads.2).2 (once e he)
      rw [Outline.distinct_object_iff, values, ← keyTexts_of_readsEntry read,
        Sample.repeatsKey_mapping_iff]
      simp only [not_or, not_not, not_exists, not_and]

/-! ## Building from keys and types -/

theorem distinct_ofEntries {entries : List (Sample × Descriptor)}
    (h : ∀ e ∈ entries, Outline.Distinct e.2) : Outline.Distinct (ofEntries entries) := by
  rw [ofEntries, Entries.ofPairs_eq_merged]
  apply Outline.Distinct.object (Entries.nodup_names_merged _)
  intro f hf
  obtain ⟨e, he, rfl⟩ := List.mem_map.1 (Entries.mem_of_mem_merged hf)
  exact h e he

/-! ## Looking up and writing -/

/-- What is written of an object type has as many members as there are fields, and under the name
of each field the type that is looked up. -/
def WrittenAsLookedUp (d : Descriptor) : Prop :=
  ∀ fields, d = .object fields → ∃ members, d.toJson = .object members ∧
    members.length = fields.length ∧
    ∀ name ∈ d.names, ∃ t, d.field? name = some t ∧ Json.member? name d.toJson = some t.toJson

/-- There are fewer members than fields exactly if a name repeats. -/
theorem toJson_object_length (fields : List (Text × Descriptor)) :
    ∃ members, toJson (.object fields) = .object members ∧
      (members.length = fields.length ↔ (Entries.names fields).Nodup) := by
  have count := Entries.length_merged_eq_iff (fields.map fun f => (f.1, toJson f.2))
  rw [Entries.names_map, List.length_map] at count
  exact ⟨_, toJson_object fields, count⟩

/-- If no name repeats, looking up a field comes to the same as looking up a member. -/
theorem member?_toJson_object {fields : List (Text × Descriptor)}
    (nodup : (Entries.names fields).Nodup) (name : Text) :
    Json.member? name (toJson (.object fields)) = (Entries.find? name fields).map toJson := by
  rw [toJson_object, Json.member?, Entries.merged_eq_self (by rwa [Entries.names_map]),
    Entries.find?_map]

theorem writtenAsLookedUp_of_distinct {d : Descriptor} (h : Outline.Distinct d) :
    WrittenAsLookedUp d := by
  rintro fields rfl
  obtain ⟨members, written, count⟩ := toJson_object_length fields
  refine ⟨members, written, count.2 h.nodup, fun name mem => ?_⟩
  obtain ⟨t, found⟩ : ∃ t, Entries.find? name fields = some t := Entries.exists_find?_of_mem mem
  refine ⟨t, found, ?_⟩
  rw [member?_toJson_object h.nodup, found, Option.map_some]

/-! ## The types that are built -/

/-- The types that are built: those that inference finds, those that are read from some values, and
the object types from keys and types that are built. -/
inductive Built (payloads : Sample → Prop) : Descriptor → Prop
  | inferred {s : Sample} {d : Descriptor} (h : infer s = .ok d) : Built payloads d
  | read {s : Sample} {d : Descriptor} (payload : payloads s) (h : ofSample s = .ok d) :
      Built payloads d
  | ofEntries {entries : List (Sample × Descriptor)} (h : ∀ e ∈ entries, Built payloads e.2) :
      Built payloads (ofEntries entries)

theorem Built.distinct {payloads : Sample → Prop}
    (once : ∀ s d, payloads s → ofSample s = .ok d → ¬ s.RepeatsKey) {d : Descriptor}
    (h : Built payloads d) : Outline.Distinct d := by
  induction h with
  | inferred h => exact infer_distinct h
  | read payload h => exact (distinct_iff_of_ofSample h).2 (once _ _ payload h)
  | ofEntries _ ih => exact distinct_ofEntries ih

/-- Whichever values are read: the types that are built repeat no name, and their fields are written
as they are looked up, exactly if none of the values that are read as a type repeats a key. -/
theorem built_distinct_iff (payloads : Sample → Prop) :
    (∀ d, Built payloads d → Outline.Distinct d ∧ WrittenAsLookedUp d) ↔
      ∀ s d, payloads s → ofSample s = .ok d → ¬ s.RepeatsKey := by
  constructor
  · intro distinct s d payload h
    exact (distinct_iff_of_ofSample h).1 (distinct d (.read payload h)).1
  · intro once d h
    exact ⟨h.distinct once, writtenAsLookedUp_of_distinct (h.distinct once)⟩

/-- A mapping that goes through a key twice is read as an object that names a field twice. What is
looked up under the name is not what is written. -/
theorem ofSample_of_repeated_key :
    let name := Text.ofString "a"
    let payload := Sample.mapping .view (Nature.named "Pairs")
      [(Sample.ofText name, Sample.ofText Tag.string.text),
        (Sample.ofText name, Sample.ofText Tag.number.text)]
    ∃ d, ofSample payload = .ok d ∧ ¬ Outline.Distinct d ∧
      field? d name = some (.primitive .string) ∧
      Json.member? name d.toJson = some (.text Tag.number.text) := by
  intro name payload
  refine ⟨.object [(name, .primitive .string), (name, .primitive .number)], rfl, fun distinct => ?_,
    rfl, rfl⟩
  exact absurd distinct.nodup (by decide)

end Descriptor

end SampleTypes
