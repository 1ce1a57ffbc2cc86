import Mathlib.Tactic.SplitIfs
import SampleTypes.Inference
import SampleTypes.Proofs.Canonical.Basic
import SampleTypes.Proofs.DepthFirst

/-!
# Values that have no canonical form

A value has no canonical form if it keeps a value that stands for no JSON value. A list or tuple
keeps its items, and a mapping keeps, of the values under keys with one text, the last. The refusal
is that of the first such value in depth-first order, in which the values of a mapping are in the
order of the texts of their keys, whatever the order of the entries is.

## Main definitions

* `Sample.hasForm` — the values that stand for JSON values, whatever they hold
* `Sample.refusal` — what a value that stands for none is refused with
* `Sample.Keeps` — the values that a value keeps, at their paths
* `Step.Before` — the order of items and of names
* `Sample.formParts` — what the canonical form is made of, in the order in which it is looked at

## Main results

* `Sample.hasForm_of_canonical` — a value with a canonical form keeps only values that have one
* `Sample.firstFind_of_canonical_error` — the refusal is that of the first value that has none
* `Sample.canonical_refuses_first` — when a value is refused, and with what
-/

namespace SampleTypes

/-! ## The order of paths -/

/-- Items are in the order of their indexes, and names in that of their code points. -/
inductive Step.Before : Step → Step → Prop
  | index {m n : Int} (h : m < n) : Before (.index m) (.index n)
  | name {s t : Text} (h : s < t) : Before (.name s) (.name t)

namespace Sample

/-! ## Values that are kept, and values that are refused -/

/-- The values that stand for JSON values, if what they hold does. -/
def hasForm : Sample → Bool
  | .null => true
  | .bool _ => true
  | .text _ _ => true
  | .int _ _ => true
  | .float _ _ => true
  | .sequence kind _ _ => kind != .run
  | .mapping _ _ _ => true
  | .undefined => false
  | .number _ => false
  | .date _ => false
  | .set _ => false
  | .other _ => false

/-- Whether a value is a set. -/
def isSet : Sample → Bool
  | .set _ => true
  | _ => false

/-- What a value that stands for no JSON value is refused with. -/
def refusal (s : Sample) : Refusal :=
  if s.isSet then .unordered s.typeName else .foreign s.typeName

/-- The details of a refusal give the type of the value. -/
theorem details_refusal (s : Sample) : s.refusal.details = Refusal.ofType s.typeName := by
  rw [refusal]
  split_ifs <;> rfl

/-- Sets are refused for a reason of their own. -/
theorem message_refusal_iff (s : Sample) :
    s.refusal.message = Text.ofString "canon() does not accept unordered set inputs" ↔
      s.isSet = true := by
  have apart : (Refusal.foreign s.typeName).message ≠
      Text.ofString "canon() does not accept unordered set inputs" := by
    rw [Refusal.message]
    decide
  rw [refusal]
  split_ifs with set
  · exact iff_of_true rfl set
  · exact iff_of_false apart set

/-- A value keeps another at a path: itself, what an item of a list or tuple keeps, and what the
last value under a name keeps. -/
inductive Keeps : Sample → Path → Sample → Prop
  | here (s : Sample) : Keeps s [] s
  | item {kind : SequenceKind} (hk : kind ≠ .run) {n : Nature} {items : List Sample} {i : Nat}
      {s t : Sample} {path : Path} (mem : items[i]? = some s) (h : Keeps s path t) :
      Keeps (.sequence kind n items) (.index i :: path) t
  | value {kind : MappingKind} {n : Nature} {entries : List (Sample × Sample)} {name : Text}
      {s t : Sample} {path : Path} (last : Entries.last? name (labelled entries) = some s)
      (h : Keeps s path t) : Keeps (.mapping kind n entries) (.name name :: path) t

/-- A value that stands for no JSON value is kept at a path. -/
def RefusedAt (s : Sample) (path : Path) (t : Sample) : Prop := s.Keeps path t ∧ t.hasForm = false

/-! ## What the canonical form is made of -/

/-- The items of a list or tuple, and the last values under the names of a mapping in the order of
the names. -/
def formParts : Sample → List (Step × Sample)
  | .sequence .run _ _ => []
  | .sequence _ _ items => items.mapIdx fun i s => (.index i, s)
  | .mapping _ _ entries =>
    (Entries.sort (Entries.merged (labelled entries))).map fun e => (.name e.1, e.2)
  | _ => []

theorem mem_sort_merged_iff {entries : List (Sample × Sample)} {name : Text} {s : Sample} :
    (name, s) ∈ Entries.sort (Entries.merged (labelled entries)) ↔
      Entries.last? name (labelled entries) = some s := by
  rw [(Entries.sort_perm _).mem_iff, ← Entries.find?_eq_some_iff (Entries.nodup_names_merged _),
    Entries.find?_merged]

theorem formParts_sequence {kind : SequenceKind} (hk : kind ≠ .run) (n : Nature)
    (items : List Sample) :
    formParts (.sequence kind n items) = items.mapIdx fun i s => (.index i, s) := by
  cases kind with
  | run => exact absurd rfl hk
  | _ => rfl

/-- What is a part of a value: an item of a list or tuple, or the last value under a name. -/
theorem mem_formParts_cases {s part : Sample} {step : Step} (h : (step, part) ∈ s.formParts) :
    (∃ kind n items, ∃ i : Nat, s = .sequence kind n items ∧ kind ≠ .run ∧ step = .index i ∧
      items[i]? = some part) ∨
    ∃ kind n entries name, s = .mapping kind n entries ∧ step = .name name ∧
      Entries.last? name (labelled entries) = some part := by
  cases s with
  | sequence kind n items =>
    have hk : kind ≠ .run := by
      rintro rfl
      cases h
    rw [formParts_sequence hk] at h
    obtain ⟨i, hi, same⟩ := List.mem_mapIdx.1 h
    cases same
    exact .inl ⟨kind, n, items, i, rfl, hk, rfl, List.getElem?_eq_getElem hi⟩
  | mapping kind n entries =>
    obtain ⟨⟨name, s⟩, he, same⟩ := List.mem_map.1 h
    cases same
    exact .inr ⟨kind, n, entries, name, rfl, rfl, mem_sort_merged_iff.1 he⟩
  | _ => cases h

/-- Parts are looked at in the order of the steps to them. -/
theorem formParts_ordered (s : Sample) :
    s.formParts.Pairwise fun p q => Step.Before p.1 q.1 := by
  cases s with
  | sequence kind n items =>
    by_cases hk : kind = .run
    · rw [hk]
      exact .nil
    · rw [formParts_sequence hk, List.pairwise_iff_getElem]
      intro i j _ _ lt
      simpa using Step.Before.index (by omega : (i : Int) < j)
  | mapping kind n entries =>
    have names := Entries.names_sort_increasing (Entries.nodup_names_merged (labelled entries))
    exact List.pairwise_map.2 ((List.pairwise_map.1 names).imp fun lt => .name lt)
  | _ => exact .nil

/-- What is kept behind a step is kept by the part that the step leads to. -/
theorem keeps_cons_iff {s t : Sample} {step : Step} {path : Path} :
    s.Keeps (step :: path) t ↔ ∃ part, (step, part) ∈ s.formParts ∧ part.Keeps path t := by
  constructor
  · intro h
    cases h with
    | @item _ hk _ _ i part _ _ mem h =>
      obtain ⟨hi, rfl⟩ := List.getElem?_eq_some_iff.1 mem
      rw [formParts_sequence hk]
      exact ⟨_, List.mem_mapIdx.2 ⟨i, hi, rfl⟩, h⟩
    | value last h => exact ⟨_, List.mem_map.2 ⟨_, mem_sort_merged_iff.2 last, rfl⟩, h⟩
  · rintro ⟨part, mem, h⟩
    rcases mem_formParts_cases mem with
      ⟨_, _, _, _, rfl, hk, rfl, item⟩ | ⟨_, _, _, _, rfl, rfl, last⟩
    · exact .item hk item h
    · exact .value last h

theorem mem_contents_of_mem_formParts {s part : Sample} {step : Step}
    (h : (step, part) ∈ s.formParts) : part ∈ s.contents := by
  rcases mem_formParts_cases h with ⟨_, _, _, _, rfl, -, -, item⟩ | ⟨_, _, _, _, rfl, -, last⟩
  · exact List.mem_of_getElem? item
  · have mem := List.mem_reverse.1 (Entries.mem_of_find? last)
    obtain ⟨entry, hentry, same⟩ := List.mem_map.1 mem
    cases same
    exact List.mem_map_of_mem hentry

/-! ## Success and failure -/

theorem canonical_of_hasForm_eq_false {s : Sample} (h : s.hasForm = false) :
    s.canonical = .error s.refusal := by
  cases s with
  | sequence kind n items =>
    cases kind with
    | run => rfl
    | _ => cases h
  | undefined | number | date | set | other => rfl
  | _ => cases h

/-- A value with a canonical form keeps only values that have one. -/
theorem hasForm_of_canonical {s t : Sample} {path : Path} (h : s.Keeps path t) {j : Json}
    (form : s.canonical = .ok j) : t.hasForm = true := by
  induction h generalizing j with
  | here s =>
    by_contra none
    rw [canonical_of_hasForm_eq_false (Bool.eq_false_iff.2 none)] at form
    cases form
  | item _ mem _ ih =>
    obtain ⟨-, js, found, -⟩ := canonical_sequence_iff.1 form
    obtain ⟨k, -, form⟩ := exists_of_mem_right found.flip (List.mem_of_getElem? mem)
    exact ih form
  | value last _ ih =>
    obtain ⟨members, found, -⟩ := canonical_mapping_iff.1 form
    obtain ⟨m, -, -, form⟩ := exists_of_mem_right found.flip (mem_sort_merged_iff.2 last)
    exact ih form

/-- A value that stands for a JSON value itself is refused for one of its parts, and those before it
have canonical forms. -/
theorem exists_part_of_canonical_error {s : Sample} (form : s.hasForm = true) {r : Refusal}
    (h : s.canonical = .error r) :
    ∃ (i : Nat) (p : Step × Sample), s.formParts[i]? = some p ∧ p.2.canonical = .error r ∧
      ∀ (j : Nat) (q : Step × Sample), j < i → s.formParts[j]? = some q →
        ∃ k, q.2.canonical = .ok k := by
  cases s with
  | sequence kind n items =>
    have hk : kind ≠ .run := by simpa [hasForm] using form
    rw [canonical_sequence hk, map_eq_error_iff, canonicalItems_eq_mapM] at h
    obtain ⟨i, part, hi, failed, before⟩ := exists_of_mapM_error h
    simp only [formParts_sequence hk, List.getElem?_mapIdx]
    refine ⟨i, (.index i, part), by rw [hi]; rfl, failed, fun j q hj hq => ?_⟩
    obtain ⟨s, hs, rfl⟩ := Option.map_eq_some_iff.1 hq
    exact before j s hj hs
  | mapping kind n entries =>
    -- The outcomes of the values are settled in the order that the parts are listed in.
    rw [canonical_mapping, map_eq_error_iff, settle_eq_mapM, List.mapM_map] at h
    obtain ⟨i, e, hi, failed, before⟩ := exists_of_mapM_error h
    simp only [formParts, List.getElem?_map]
    refine ⟨i, (.name e.1, e.2), by rw [hi]; rfl, map_eq_error_iff.1 failed, fun j q hj hq => ?_⟩
    obtain ⟨e', he', rfl⟩ := Option.map_eq_some_iff.1 hq
    obtain ⟨_, settled⟩ := before j e' hj he'
    obtain ⟨k, form, -⟩ := map_eq_ok_iff.1 settled
    exact ⟨k, form⟩
  | null | bool | text | int | float => cases h
  | _ => cases form

/-- A value that stands for a JSON value itself is refused where its parts are. -/
theorem refusedAt_iff_of_hasForm {s : Sample} (form : s.hasForm = true) (path : Path) (t : Sample) :
    s.RefusedAt path t ↔
      ∃ p ∈ s.formParts, ∃ rest, path = p.1 :: rest ∧ p.2.RefusedAt rest t := by
  constructor
  · rintro ⟨keeps, none⟩
    cases path with
    | nil =>
      cases keeps
      rw [form] at none
      cases none
    | cons step rest =>
      obtain ⟨part, mem, keeps⟩ := keeps_cons_iff.1 keeps
      exact ⟨_, mem, rest, rfl, keeps, none⟩
  · rintro ⟨p, mem, rest, rfl, keeps, none⟩
    exact ⟨keeps_cons_iff.2 ⟨p.2, mem, keeps⟩, none⟩

/-- The refusal is that of the first value that is kept and stands for no JSON value. -/
theorem firstFind_of_canonical_error {s : Sample} {r : Refusal} (h : s.canonical = .error r) :
    ∃ path t, FirstFind Step.Before s.RefusedAt path t ∧ r = t.refusal := by
  induction s using Sample.byContents generalizing r with
  | h s ih =>
    -- Either the value is refused itself, or for the first of its parts that has no form.
    cases form : s.hasForm with
    | false =>
      rw [canonical_of_hasForm_eq_false form] at h
      cases h
      exact ⟨[], s, .root ⟨.here s, form⟩, rfl⟩
    | true =>
      obtain ⟨i, p, hi, failed, before⟩ := exists_part_of_canonical_error form h
      have mem := mem_contents_of_mem_formParts (List.mem_of_getElem? hi)
      obtain ⟨path, t, first, rfl⟩ := ih p.2 mem failed
      refine ⟨p.1 :: path, t, ?_, rfl⟩
      refine first.among s.formParts_ordered (refusedAt_iff_of_hasForm form) hi ?_
      rintro j q hj hq rest a ⟨keeps, none⟩
      obtain ⟨k, form⟩ := before j q hj hq
      rw [hasForm_of_canonical keeps form] at none
      cases none

/-- A value under a key is not looked at if a later key has the same text. -/
theorem canonical_overridden (kind : MappingKind) (n : Nature)
    (before : List (Sample × Sample)) (key s t : Sample) {after : List (Sample × Sample)}
    (h : key.shown ∈ after.map fun e => e.1.shown) :
    (Sample.mapping kind n (before ++ (key, s) :: after)).canonical =
      (Sample.mapping kind n (before ++ (key, t) :: after)).canonical := by
  rw [← names_labelled] at h
  have merged := Entries.merged_overridden h (labelled before) s t
  have split (value : Sample) : labelled (before ++ (key, value) :: after) =
      labelled before ++ (key.shown, value) :: labelled after := List.map_append
  rw [canonical_mapping, canonical_mapping, split, split, merged]

/-- When a value is refused, and with what. It is refused exactly if it keeps a value that stands
for no JSON value. The refusal gives the type of the first such value in depth-first order, in which
the values of a mapping come in the order of the texts of their keys, and has the reason for sets
exactly if that value is one. A value under a key that is overridden makes no difference. -/
theorem canonical_refuses_first (s : Sample) :
    ((∃ r, s.canonical = .error r) ↔ ∃ path t, s.Keeps path t ∧ t.hasForm = false) ∧
      (∀ r, s.canonical = .error r → ∃ path t, FirstFind Step.Before s.RefusedAt path t ∧
        r.details = Refusal.ofType t.typeName ∧
        (r.message = Text.ofString "canon() does not accept unordered set inputs" ↔
          t.isSet = true)) ∧
      ∀ kind n before key value after, key.shown ∈ after.map (fun e => e.1.shown) →
        s = .mapping kind n (before ++ (key, value) :: after) →
        ∀ other, (Sample.mapping kind n (before ++ (key, other) :: after)).canonical =
          s.canonical := by
  refine ⟨⟨?_, ?_⟩, fun r h => ?_, ?_⟩
  · rintro ⟨r, h⟩
    obtain ⟨path, t, first, -⟩ := firstFind_of_canonical_error h
    exact ⟨path, t, first.here⟩
  · rintro ⟨path, t, keeps, none⟩
    cases form : s.canonical with
    | error r => exact ⟨r, rfl⟩
    | ok j =>
      rw [hasForm_of_canonical keeps form] at none
      cases none
  · obtain ⟨path, t, first, rfl⟩ := firstFind_of_canonical_error h
    exact ⟨path, t, first, details_refusal t, message_refusal_iff t⟩
  · rintro kind n before key value after overridden rfl other
    exact canonical_overridden kind n before key other value overridden

end Sample

end SampleTypes
