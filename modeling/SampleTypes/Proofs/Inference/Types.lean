import Mathlib.Data.List.Forall2
import SampleTypes.Proofs.Descriptor.Basic
import SampleTypes.Proofs.Inference.Walk

/-!
# The types that inference finds

A value has a type if inference does not stop at it and its parts have types; where the value
stands then makes no difference. The types that are found are of a special kind: no object in them
names a field twice, and the mixed type is only ever the type of the items of a list.

## Main results

* `infer_eq_ok_iff` — which values have which types
* `inferAt_eq_ok_iff` — the path to a value does not matter for its type
* `infer_distinct` — the types that are found name no field twice
* `infer_ne_mixed` — no value has the mixed type
-/

namespace SampleTypes

/-- Parts have types if each has one, wherever they stand. -/
theorem inferParts_eq_ok_iff (path : Path) {parts : List (Step × Sample)}
    (h : ∀ p ∈ parts, ∀ path d, inferAt path p.2 = .ok d ↔ infer p.2 = .ok d)
    (ds : List Descriptor) :
    inferParts path parts = .ok ds ↔
      List.Forall₂ (fun p d => infer p.2 = .ok d) parts ds := by
  induction parts generalizing ds with
  | nil =>
    rw [List.forall₂_nil_left_iff, inferParts, Except.ok.injEq]
    exact eq_comm
  | cons p rest ih =>
    have first := h p (List.mem_cons_self ..) (path ++ [p.1])
    have others := ih fun q hq => h q (List.mem_cons_of_mem _ hq)
    rw [List.forall₂_cons_left_iff]
    constructor
    · intro found
      rw [inferParts] at found
      cases hd : inferAt (path ++ [p.1]) p.2 with
      | error e => rw [hd] at found; cases found
      | ok d =>
        cases htail : inferParts path rest with
        | error e => rw [hd, htail] at found; cases found
        | ok tail =>
          rw [hd, htail] at found
          cases found
          exact ⟨d, tail, (first d).1 hd, (others tail).1 htail, rfl⟩
    · rintro ⟨d, tail, hd, htail, rfl⟩
      rw [inferParts, (first d).2 hd, (others tail).2 htail]
      rfl

/-- A value has a type if its parts have. -/
theorem inferAt_eq_ok_iff_of_parts {path : Path} {s : Sample}
    (h : ∀ p ∈ s.parts, ∀ path d, inferAt path p.2 = .ok d ↔ infer p.2 = .ok d)
    (d : Descriptor) :
    inferAt path s = .ok d ↔ s.stops = false ∧
      ∃ ds, List.Forall₂ (fun p d => infer p.2 = .ok d) s.parts ds ∧ s.typeFromParts ds = d := by
  rw [inferAt_eq]
  cases s.stops with
  | true => simp
  | false =>
    simp only [Bool.false_eq_true, if_false, true_and, ← inferParts_eq_ok_iff path h]
    cases inferParts path s.parts with
    | error e => simp [Except.map]
    | ok ds => simp [Except.map]

/-- Where a value stands makes no difference for its type. -/
theorem inferAt_eq_ok_iff (path : Path) (s : Sample) (d : Descriptor) :
    inferAt path s = .ok d ↔ infer s = .ok d := by
  -- Along the walk: the paths of the parts differ with that of the value, their types do not.
  induction s using Sample.byParts generalizing path d with
  | h s ih => rw [infer, inferAt_eq_ok_iff_of_parts ih, inferAt_eq_ok_iff_of_parts ih]

/-- A value has a type if inference does not stop at it and every part of it has a type. -/
theorem infer_eq_ok_iff (s : Sample) (d : Descriptor) :
    infer s = .ok d ↔ s.stops = false ∧
      ∃ ds, List.Forall₂ (fun p d => infer p.2 = .ok d) s.parts ds ∧ s.typeFromParts ds = d :=
  inferAt_eq_ok_iff_of_parts (fun p _ path => inferAt_eq_ok_iff path p.2) d

/-! ## Names and the mixed type -/

theorem Descriptor.ofItems_distinct {types : List Descriptor}
    (h : ∀ d ∈ types, Outline.Distinct d) : Outline.Distinct (Descriptor.ofItems types) := by
  cases types with
  | nil => exact .array (.primitive _)
  | cons d rest =>
    apply Outline.Distinct.array
    split_ifs
    · exact h d (List.mem_cons_self ..)
    · exact .primitive _

theorem Sample.typeFromParts_distinct (s : Sample) {types : List Descriptor}
    (h : ∀ d ∈ types, Outline.Distinct d) : Outline.Distinct (s.typeFromParts types) := by
  cases s with
  | sequence kind n items =>
    cases kind with
    | run =>
      simp only [typeFromParts]
      split_ifs
      · exact .primitive _
      · exact .primitive _
    | _ =>
      simp only [typeFromParts]
      split_ifs
      · exact .primitive _
      · exact Descriptor.ofItems_distinct h
  | mapping kind n entries =>
    rw [typeFromParts]
    split_ifs
    · exact .primitive _
    · rw [Entries.ofPairs_eq_merged]
      apply Outline.Distinct.object (Entries.nodup_names_merged _)
      intro f hf
      exact h f.2 (List.of_mem_zip (Entries.mem_of_mem_merged hf)).2
  | _ => exact .primitive _

/-- The types that are found name no field twice. -/
theorem infer_distinct {s : Sample} {d : Descriptor} (h : infer s = .ok d) :
    Outline.Distinct d := by
  induction s using Sample.byParts generalizing d with
  | h s ih =>
    obtain ⟨-, types, found, rfl⟩ := (infer_eq_ok_iff s d).1 h
    apply s.typeFromParts_distinct
    intro e he
    obtain ⟨p, hp, hpe⟩ := exists_of_mem_right found he
    exact ih p hp hpe

theorem Descriptor.ofItems_ne_primitive (types : List Descriptor) (tag : Tag) :
    Descriptor.ofItems types ≠ .primitive tag := by
  cases types <;> simp [Descriptor.ofItems]

theorem Sample.typeFromParts_ne_mixed (s : Sample) (types : List Descriptor) :
    s.typeFromParts types ≠ .primitive .mixed := by
  cases s with
  | sequence kind n items =>
    cases kind with
    | run =>
      simp only [typeFromParts]
      split_ifs <;> simp
    | _ =>
      simp only [typeFromParts]
      split_ifs
      · simp
      · exact Descriptor.ofItems_ne_primitive types .mixed
  | mapping kind n entries =>
    rw [typeFromParts]
    split_ifs <;> simp
  | set n =>
    rw [typeFromParts]
    split_ifs <;> simp
  | other n =>
    rw [typeFromParts]
    split_ifs <;> simp
  | _ => simp [typeFromParts]

/-- Only the items of a list have the mixed type, all together. -/
theorem infer_ne_mixed (s : Sample) : infer s ≠ .ok (.primitive .mixed) := by
  intro h
  obtain ⟨-, types, -, found⟩ := (infer_eq_ok_iff s _).1 h
  exact s.typeFromParts_ne_mixed types found

end SampleTypes
