import SampleTypes.Proofs.Json.Forms
import SampleTypes.Proofs.Number.Layout
import SampleTypes.Proofs.Text.Ascii

/-!
# The indented form is ASCII

The indented form of every JSON value is printable ASCII and line feeds: all else stands in strings,
where it is escaped.

## Main results

* `Layout.ascii_write` — numbers are ASCII if the signs of their layout are
* `Json.ascii_indented` — so is the indented form
-/

namespace SampleTypes

open Text

theorem Layout.ascii_write {l : Layout} (signs : Ascii l.signs) (x : Binary64) :
    Ascii (l.write x) := by
  have digit (c : CodePoint) (h : c.isDigit = true) :
      c = ofChar '\n' ∨ (0x20 ≤ c.val ∧ c.val < 0x7F) := by
    simp only [CodePoint.isDigit, Bool.and_eq_true, decide_eq_true_eq] at h
    omega
  exact forall_mem_write digit signs x

/-! ## Strings -/

namespace Json

theorem ascii_escape (c : CodePoint) : Ascii (escape c) := by
  have unit (n : Nat) : Ascii (unitEscape n) := ascii_append.2 ⟨by decide, Utf8.ascii_hex 4 n⟩
  rw [escape]
  split_ifs
  · exact unit _
  · exact ascii_append.2 ⟨unit _, unit _⟩

theorem ascii_stringOne (c : CodePoint) : Ascii (stringOne true c) := by
  rw [stringOne]
  cases short : shortEscape? c with
  | some letter =>
    -- A backslash and one of the letters of short escapes.
    change Ascii [ofChar '\\', ofChar letter]
    unfold shortEscape? at short
    split_ifs at short <;> cases short <;> decide
  | none =>
    simp only [Bool.true_and]
    split_ifs with special
    · exact ascii_escape c
    · -- What stands for itself is neither a control character nor beyond ASCII.
      refine ascii_cons.2 ⟨.inr ?_, ascii_nil⟩
      simp only [CodePoint.isControl, Bool.or_eq_true, decide_eq_true_eq, not_or] at special
      omega

theorem ascii_string (t : Text) : Ascii (string true t) :=
  ascii_cons.2 ⟨by decide,
    ascii_append.2 ⟨ascii_flatMap fun c _ => ascii_stringOne c, by decide⟩⟩

/-! ## Values -/

theorem ascii_block {level : Nat} {opening closing : Char} (ho : Ascii [ofChar opening])
    (hc : Ascii [ofChar closing]) {parts : List Text} (h : ∀ t ∈ parts, Ascii t) :
    Ascii (block level opening closing parts) := by
  have line (level : Nat) : Ascii (newLine level) :=
    ascii_cons.2 ⟨by decide, ascii_replicate (by decide) _⟩
  rw [block]
  split_ifs
  · exact ascii_append.2 ⟨ho, hc⟩
  · refine ascii_append.2 ⟨ho, ascii_append.2 ⟨ascii_append.2 ⟨ascii_append.2 ⟨line _, ?_⟩,
      line _⟩, hc⟩⟩
    exact ascii_joinWith (ascii_cons.2 ⟨by decide, line _⟩) h

theorem ascii_indentedAt (j : Json) (level : Nat) : Ascii (j.indentedAt level) := by
  induction j generalizing level with
  | null =>
    rw [indentedAt]
    decide
  | bool b =>
    rw [indentedAt]
    cases b <;> decide
  | int n => exact ascii_ofInt n
  | float x => exact Layout.ascii_write (by decide) x
  | text t => exact ascii_string t
  | array items ih =>
    rw [indentedAt, indentedItems_eq_map]
    apply ascii_block
    · decide
    · decide
    · intro t ht
      obtain ⟨j, hj, rfl⟩ := List.mem_map.1 ht
      exact ih j hj _
  | object members ih =>
    rw [indentedAt, indentedMembers_eq_map]
    apply ascii_block
    · decide
    · decide
    · intro t ht
      obtain ⟨m, hm, rfl⟩ := List.mem_map.1 ht
      exact ascii_append.2 ⟨ascii_append.2 ⟨ascii_string m.1, by decide⟩, ih m hm _⟩

theorem ascii_indented (j : Json) : Ascii j.indented := ascii_indentedAt j 0

end Json

end SampleTypes
