import SampleTypes.Proofs.Text.Blank
import SampleTypes.Settings

/-!
# Settings that are overridden

A table of settings is read tolerantly: whatever is in it, the name that comes out is one without
blanks around it, or there is none. So reading is a normal form. The settings that can be put in a
table and read back are just those with such a name, and choices that override them, one after
another, never lead away from them: a choice leaves the name alone, and the last one that is made
counts.

## Main definitions

* `Settings.Normal` — settings with a trimmed name, or none
* `Settings.table` — the table that holds settings
* `Settings.overridden` — settings after choices, one after another

## Main results

* `Settings.normal_ofTable` — what is read from a table is normal
* `Settings.ofTable_table_iff` — normal settings are those that are read back
* `Settings.overridden_ofTable` — what choices make of settings that were read
-/

namespace SampleTypes.Settings

/-- Settings whose name, if they have one, is not empty and has no blanks around it. -/
def Normal (s : Settings) : Prop := ∀ name, s.typeName = some name → name ≠ [] ∧ name.Trimmed

/-- The table that holds settings: both are written, an absent name as nothing. -/
def table (s : Settings) : Sample :=
  .dict [(.ofText (Text.ofString "type_name"), (s.typeName.map .ofText).getD .null),
    (.ofText (Text.ofString "derive_name"), .bool s.deriveName)]

/-- The settings after choices about names that are derived, one after another. -/
def overridden (s : Settings) (choices : List (Option Bool)) : Settings :=
  choices.foldl withDeriveName s

variable {s : Settings} {name : Text}

/-! ## Names in tables -/

/-- A name that is read was written in a text, with or without blanks around it. -/
theorem name?_eq_some_iff {v : Sample} :
    name? v = some name ↔
      ∃ n t, v = .text n t ∧ n.truth ≠ some false ∧ name = t.strip ∧ name ≠ [] := by
  cases v with
  | text n t =>
    simp only [name?, Sample.text.injEq]
    split_ifs with absent
    · simp only [false_iff, not_exists, not_and]
      rintro _ _ ⟨rfl, rfl⟩ truthy rfl left
      simp [left, truthy] at absent
    · simp only [not_or] at absent
      constructor
      · rintro ⟨⟩
        exact ⟨n, t, ⟨rfl, rfl⟩, absent.2, rfl, absent.1⟩
      · rintro ⟨_, _, ⟨rfl, rfl⟩, -, rfl, -⟩
        rfl
  | _ => simp [name?]

theorem normal_ofTable (v : Sample) : (ofTable v).Normal := by
  intro name h
  cases v with
  | mapping kind n entries =>
    cases kind with
    | dict =>
      obtain ⟨v, -, named⟩ := Option.bind_eq_some_iff.1 h
      obtain ⟨_, t, -, -, rfl, left⟩ := name?_eq_some_iff.1 named
      exact ⟨left, Text.trimmed_strip t⟩
    | view => cases h
  | _ => cases h

/-- A table says what the settings it holds say, with the name read anew. -/
theorem ofTable_table (s : Settings) :
    ofTable s.table =
      { typeName := s.typeName.bind fun name => name? (.ofText name)
        deriveName := s.deriveName } := by
  cases s with
  | mk typeName deriveName => cases typeName <;> rfl

theorem name?_ofText (h : name ≠ []) (trimmed : name.Trimmed) :
    name? (.ofText name) = some name :=
  name?_eq_some_iff.2 ⟨_, name, rfl, by decide, trimmed.strip_eq.symm, h⟩

/-- Settings are read back from their table just if they are normal. -/
theorem ofTable_table_iff : ofTable s.table = s ↔ s.Normal := by
  constructor
  · intro same
    rw [← same]
    exact normal_ofTable s.table
  · intro normal
    rw [ofTable_table]
    cases named : s.typeName with
    | none => rw [Option.bind_none, ← named]
    | some name =>
      obtain ⟨left, trimmed⟩ := normal name named
      rw [Option.bind_some, name?_ofText left trimmed, ← named]

/-! ## Choices -/

@[simp] theorem typeName_withDeriveName (s : Settings) (choice : Option Bool) :
    (s.withDeriveName choice).typeName = s.typeName := by
  cases choice <;> rfl

@[simp] theorem deriveName_withDeriveName (s : Settings) (choice : Option Bool) :
    (s.withDeriveName choice).deriveName = choice.getD s.deriveName := by
  cases choice <;> rfl

theorem overridden_cons (s : Settings) (choice : Option Bool) (choices : List (Option Bool)) :
    s.overridden (choice :: choices) = (s.withDeriveName choice).overridden choices := rfl

theorem typeName_overridden (s : Settings) (choices : List (Option Bool)) :
    (s.overridden choices).typeName = s.typeName := by
  induction choices generalizing s with
  | nil => rfl
  | cons choice choices ih => rw [overridden_cons, ih, typeName_withDeriveName]

/-- Of choices that are made the last one counts. -/
theorem deriveName_overridden (s : Settings) (choices : List (Option Bool)) :
    (s.overridden choices).deriveName = (choices.filterMap id).getLast?.getD s.deriveName := by
  induction choices generalizing s with
  | nil => rfl
  | cons choice choices ih =>
    rw [overridden_cons, ih, deriveName_withDeriveName]
    -- A choice that is made stands in front of the later ones, as what they would leave.
    cases choice with
    | none => rfl
    | some made => simp [List.getLast?_cons]

theorem Normal.overridden (h : s.Normal) (choices : List (Option Bool)) :
    (s.overridden choices).Normal := by
  intro name named
  rw [typeName_overridden] at named
  exact h name named

/-- Choices, one after another, leave the name that was read from a table alone; of the choices that
are made the last one counts, and where none is made what was read. All settings that are reached so
are read back from their table, and the name in them is not empty and has no blanks around it. -/
theorem overridden_ofTable (v : Sample) (choices : List (Option Bool)) :
    let read := ofTable v
    let reached := read.overridden choices
    reached.typeName = read.typeName ∧
      reached.deriveName = (choices.filterMap id).getLast?.getD read.deriveName ∧
      ofTable reached.table = reached ∧
      ∀ name, reached.typeName = some name → name ≠ [] ∧ name.strip = name := by
  intro read reached
  -- Reading makes settings normal and no choice touches a name, so normality carries over.
  have normal : reached.Normal := (normal_ofTable v).overridden choices
  refine ⟨typeName_overridden read choices, deriveName_overridden read choices,
    ofTable_table_iff.2 normal, fun name named => ?_⟩
  obtain ⟨left, trimmed⟩ := normal name named
  exact ⟨left, trimmed.strip_eq⟩

/-- Blanks of other scripts are taken off a name, and a choice that is not made changes nothing. -/
example :
    let name := Text.ofString "\u3000User\u0085"
    let read := ofTable (.dict [(.ofText (Text.ofString "type_name"), .ofText name)])
    read.overridden [some true, none] = ⟨some (Text.ofString "User"), true⟩ := by
  decide

end SampleTypes.Settings
