import Mathlib.Data.List.DropRight
import SampleTypes.Text.Blank

/-!
# Texts without blanks around them

Stripping takes the blanks off the two ends of a text, and nothing is left of a text that is all
blank. What is left neither begins nor ends with a blank, so stripping it once more changes nothing:
the stripped texts are those with no blank at either end.

## Main definitions

* `Text.Trimmed` — no blank at either end

## Main results

* `Text.trimmed_strip`, `Text.strip_eq_self_iff` — stripped texts are the trimmed ones
* `Text.strip_eq_nil_iff` — nothing is left of a text that is all blank, and of no other
-/

namespace SampleTypes.Text

variable {t : Text}

/-- Neither the first nor the last code point of a text is blank. -/
structure Trimmed (t : Text) : Prop where
  head : ∀ c ∈ t.head?, c.isBlank = false
  last : ∀ c ∈ t.getLast?, c.isBlank = false

theorem stripEnd_eq_rdropWhile (t : Text) : stripEnd t = t.rdropWhile CodePoint.isBlank := rfl

theorem isBlank_of_head?_dropWhile {c : CodePoint}
    (h : (t.dropWhile CodePoint.isBlank).head? = some c) : c.isBlank = false := by
  have first := List.head?_dropWhile_not CodePoint.isBlank t
  rw [h] at first
  simpa using first

theorem trimmed_strip (t : Text) : t.strip.Trimmed := by
  rw [strip, stripEnd_eq_rdropWhile]
  constructor
  · -- Taking blanks off the end leaves a beginning, so the first code point is the same.
    intro c hc
    obtain ⟨rest, whole⟩ := List.rdropWhile_prefix CodePoint.isBlank
      (l := t.dropWhile CodePoint.isBlank)
    refine isBlank_of_head?_dropWhile (t := t) ?_
    rw [← whole, List.head?_append, Option.mem_def.1 hc, Option.some_or]
  · intro c hc
    obtain ⟨ne, rfl⟩ := List.mem_getLast?_eq_getLast hc
    exact Bool.eq_false_iff.2 (List.rdropWhile_last_not _ _ ne)

theorem Trimmed.strip_eq (h : t.Trimmed) : t.strip = t := by
  have front : t.dropWhile CodePoint.isBlank = t := by
    cases t with
    | nil => rfl
    | cons c rest => exact List.dropWhile_cons_of_neg (by simp [h.head c rfl])
  rw [strip, front, stripEnd_eq_rdropWhile, List.rdropWhile_eq_self_iff]
  intro ne blank
  rw [h.last _ (List.getLast_mem_getLast? ne)] at blank
  cases blank

/-- Stripping changes nothing just if there is no blank at either end. -/
theorem strip_eq_self_iff : t.strip = t ↔ t.Trimmed :=
  ⟨fun h => h ▸ trimmed_strip t, Trimmed.strip_eq⟩

/-- Nothing is left of a text just if it is all blank. -/
theorem strip_eq_nil_iff : t.strip = [] ↔ ∀ c ∈ t, c.isBlank = true := by
  rw [strip, stripEnd_eq_rdropWhile, List.rdropWhile_eq_nil_iff]
  constructor
  · intro blank
    -- What stands behind the blanks in front begins with no blank, so there is none of it.
    cases rest : t.dropWhile CodePoint.isBlank with
    | nil => exact List.dropWhile_eq_nil_iff.1 rest
    | cons c rest' =>
      have first : c.isBlank = false := isBlank_of_head?_dropWhile (t := t) (by rw [rest]; rfl)
      rw [blank c (by rw [rest]; exact List.mem_cons_self ..)] at first
      cases first
  · intro blank c hc
    exact blank c ((List.dropWhile_suffix _).mem hc)

theorem strip_ne_nil_iff : t.strip ≠ [] ↔ ∃ c ∈ t, c.isBlank = false := by
  rw [ne_eq, strip_eq_nil_iff]
  simp

end SampleTypes.Text
