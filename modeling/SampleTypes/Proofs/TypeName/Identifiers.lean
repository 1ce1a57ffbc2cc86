import SampleTypes.Proofs.Text.Blank
import SampleTypes.Proofs.TypeName.Runs

/-!
# Identifiers

An identifier is a letter or an underscore and then letters, digits and underscores. A suggested
name is one whenever the fallback is: what comes before a digit is the fallback, and all other names
are the fallback itself or begin with a capital.

## Main definitions

* `TypeName.IsIdentifier` — the texts that may name a type

## Main results

* `TypeName.IsIdentifier.trimmed` — identifiers have no blanks around them
* `TypeName.isIdentifier_suggest` — suggested names are identifiers
* `TypeName.suggest_names_identifier` — and which of three names is suggested
-/

namespace SampleTypes.TypeName

/-- A letter or an underscore, and behind it letters, digits and underscores. -/
def IsIdentifier (t : Text) : Prop :=
  ∃ c rest, t = c :: rest ∧ (c.isLetter = true ∨ c = ofChar '_') ∧
    ∀ d ∈ rest, isIdentifier d = true

theorem isIdentifier_of_isAlphanumeric {c : CodePoint} (h : c.isAlphanumeric = true) :
    isIdentifier c = true := by
  rw [isIdentifier, h, Bool.true_or]

theorem IsCapitalized.isIdentifier {t : Text} (h : IsCapitalized t) : IsIdentifier t := by
  obtain ⟨c, rest, rfl, upper, others⟩ := h
  refine ⟨c, rest, rfl, .inl ?_, fun d hd => isIdentifier_of_isAlphanumeric (others d hd)⟩
  rw [CodePoint.isLetter, upper, Bool.true_or]

/-- An identifier may be continued with letters and digits. -/
theorem IsIdentifier.append {t u : Text} (h : IsIdentifier t)
    (hu : ∀ c ∈ u, c.isAlphanumeric = true) : IsIdentifier (t ++ u) := by
  obtain ⟨c, rest, rfl, first, others⟩ := h
  refine ⟨c, rest ++ u, rfl, first, List.forall_mem_append.2 ⟨others, fun d hd => ?_⟩⟩
  exact isIdentifier_of_isAlphanumeric (hu d hd)

/-! ## No blanks -/

theorem isBlank_of_isIdentifier {c : CodePoint} (h : isIdentifier c = true) :
    c.isBlank = false := by
  have range : (0x30 ≤ c.val ∧ c.val ≤ 0x39) ∨ (0x41 ≤ c.val ∧ c.val ≤ 0x7A) := by
    simp only [isIdentifier, CodePoint.isAlphanumeric, CodePoint.isLetter, CodePoint.isUpper,
      CodePoint.isLower, CodePoint.isDigit, Bool.or_eq_true, Bool.and_eq_true, decide_eq_true_eq,
      beq_iff_eq] at h
    rcases h with ((⟨low, high⟩ | ⟨low, high⟩) | ⟨low, high⟩) | rfl
    · omega
    · omega
    · omega
    · decide
  simp only [CodePoint.isBlank, Bool.or_eq_false_iff, Bool.and_eq_false_iff,
    decide_eq_false_iff_not, beq_eq_false_iff_ne, ne_eq]
  omega

theorem IsIdentifier.forall_mem {t : Text} (h : IsIdentifier t) :
    ∀ c ∈ t, isIdentifier c = true := by
  obtain ⟨c, rest, rfl, first, others⟩ := h
  refine List.forall_mem_cons.2 ⟨?_, others⟩
  rcases first with letter | rfl
  · exact isIdentifier_of_isAlphanumeric (by rw [CodePoint.isAlphanumeric, letter, Bool.true_or])
  · rfl

theorem IsIdentifier.ne_nil {t : Text} (h : IsIdentifier t) : t ≠ [] := by
  obtain ⟨c, rest, rfl, -⟩ := h
  exact List.cons_ne_nil c rest

/-- An identifier has no blank anywhere, so none at its ends. -/
theorem IsIdentifier.trimmed {t : Text} (h : IsIdentifier t) : t.Trimmed where
  head c hc := isBlank_of_isIdentifier (h.forall_mem c (List.mem_of_head? hc))
  last c hc := isBlank_of_isIdentifier (h.forall_mem c (List.mem_of_getLast? hc))

/-! ## Suggested names -/

/-- Suggested names are identifiers. -/
theorem isIdentifier_suggest {fallback : Text} (h : IsIdentifier fallback) (stem : Text) :
    IsIdentifier (suggest stem fallback) := by
  rw [suggest_eq]
  cases found : stem.find? CodePoint.isAlphanumeric with
  | none => exact h
  | some c =>
    change IsIdentifier (if c.isDigit then fallback ++ camelize stem else camelize stem)
    split_ifs with digit
    · -- The name begins with the digit, and cannot stand without the fallback.
      exact h.append (forall_mem_camelize stem)
    · exact (isCapitalized_camelize found (Bool.eq_false_iff.2 digit)).isIdentifier

/-- The name that is suggested for any text is an identifier: the fallback if the text has no letter
and no digit, the fallback and the name made of the text if a digit is the first of them, and else
the name made of the text alone. -/
theorem suggest_names_identifier {fallback : Text} (h : IsIdentifier fallback) (stem : Text) :
    IsIdentifier (suggest stem fallback) ∧
      suggest stem fallback = match stem.find? CodePoint.isAlphanumeric with
        | none => fallback
        | some c => if c.isDigit then fallback ++ camelize stem else camelize stem :=
  ⟨isIdentifier_suggest h stem, suggest_eq stem fallback⟩

/-- Neither a digit of another script nor an accented letter is a beginning. -/
theorem suggest_names_identifier_before_digit :
    IsIdentifier (Text.ofString "_T") ∧ IsIdentifier (Text.ofString "_T2ndUser") ∧
      suggest (Text.ofString "٣é-2nd_user") (Text.ofString "_T") = Text.ofString "_T2ndUser" := by
  have fallback : IsIdentifier (Text.ofString "_T") :=
    ⟨ofChar '_', Text.ofString "T", by decide, .inr rfl, List.all_eq_true.1 (by decide)⟩
  obtain ⟨identifier, name⟩ := suggest_names_identifier fallback (Text.ofString "٣é-2nd_user")
  have name := name.trans (by decide : _ = Text.ofString "_T2ndUser")
  exact ⟨fallback, name ▸ identifier, name⟩

end SampleTypes.TypeName
