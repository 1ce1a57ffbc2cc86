import Mathlib.Algebra.Group.Nat.Defs
import Mathlib.Data.List.Induction
import SampleTypes.Proofs.Number.Layout

/-!
# Decimal digits are read back

A whole number is written digit by digit, the last one after those of a tenth of it. So its digits
are read back, the first of them is no zero unless it is the only one, and how many there are says
how great the number is.

## Main results

* `Text.toNat_ofNat` — the digits of a number are read back
* `Text.exists_ofNat_eq_cons` — the first digit of a positive number
* `Text.length_ofNat_le_iff`, `Text.toNat_lt` — the number of digits
-/

namespace SampleTypes.Text

theorem digitValue?_digitChar {k : Nat} (h : k < 10) :
    (ofChar k.digitChar).digitValue? = some k := by
  have table : ∀ k : Fin 10, (ofChar k.val.digitChar).digitValue? = some k.val := by decide
  exact table ⟨k, h⟩

theorem ofNat_of_lt {n : Nat} (h : n < 10) : ofNat n = [ofChar n.digitChar] := by
  rw [ofNat, Nat.toDigits_of_lt_base h, List.map_singleton]

/-- The last digit comes after those of a tenth of the number. -/
theorem ofNat_of_le {n : Nat} (h : 10 ≤ n) :
    ofNat n = ofNat (n / 10) ++ [ofChar (n % 10).digitChar] := by
  rw [ofNat, Nat.toDigits_eq_if (by decide), if_neg (Nat.not_lt.2 h), List.map_append]
  rfl

theorem toNat_concat (t : Text) (c : CodePoint) :
    toNat (t ++ [c]) = 10 * toNat t + c.digitValue?.getD 0 := by
  simp [toNat]

/-- The digits of a number are read back. -/
theorem toNat_ofNat (n : Nat) : toNat (ofNat n) = n := by
  induction n using Nat.strongRecOn with
  | ind n ih =>
    by_cases h : n < 10
    · simp [ofNat_of_lt h, toNat, digitValue?_digitChar h]
    · have last := digitValue?_digitChar (Nat.mod_lt n (by decide : 0 < 10))
      rw [ofNat_of_le (Nat.not_lt.1 h), toNat_concat, ih (n / 10) (by omega), last,
        Option.getD_some]
      omega

/-- A positive number begins with another digit than zero. -/
theorem exists_ofNat_eq_cons {n : Nat} (h : 0 < n) :
    ∃ d rest, ofNat n = d :: rest ∧ d ≠ ofChar '0' := by
  induction n using Nat.strongRecOn with
  | ind n ih =>
    by_cases small : n < 10
    · have table : ∀ k : Fin 10, 0 < k.val → ofChar k.val.digitChar ≠ ofChar '0' := by decide
      exact ⟨_, [], ofNat_of_lt small, table ⟨n, small⟩ h⟩
    · obtain ⟨d, rest, tenth, first⟩ := ih (n / 10) (by omega) (by omega)
      refine ⟨d, rest ++ [ofChar (n % 10).digitChar], ?_, first⟩
      rw [ofNat_of_le (Nat.not_lt.1 small), tenth, List.cons_append]

theorem length_ofNat_le_iff {n k : Nat} (hk : 0 < k) : (ofNat n).length ≤ k ↔ n < 10 ^ k := by
  rw [ofNat, List.length_map, Nat.length_toDigits_le_iff (by decide) hk]

/-- So many digits write no greater number. -/
theorem toNat_lt {t : Text} (h : ∀ d ∈ t, d.isDigit = true) : toNat t < 10 ^ t.length := by
  induction t using List.reverseRecOn with
  | nil => decide
  | append_singleton t d ih =>
    have front := ih fun c hc => h c (List.mem_append_left _ hc)
    have last : d.isDigit = true := h d (by simp)
    have value : d.digitValue?.getD 0 < 10 := by
      simp only [CodePoint.digitValue?, last, if_true, Option.getD_some]
      simp only [CodePoint.isDigit, Bool.and_eq_true, decide_eq_true_eq] at last
      omega
    rw [toNat_concat, List.length_append, List.length_singleton, Nat.pow_succ]
    omega

end SampleTypes.Text
