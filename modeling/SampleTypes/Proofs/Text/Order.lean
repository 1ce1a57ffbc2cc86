import SampleTypes.Text.Basic

/-!
# The order of texts

Comparing texts by code points is a linear order, the lexicographic order of lists. Sorting by
it has therefore one result.

## Main results

* `Text.le_total`, `Text.le_trans`, `Text.le_antisymm` — the order is linear
* `Text.le_iff_lt_or_eq` — it is that of lists of code points
-/

namespace SampleTypes.Text

theorem le_cons_iff (a b : CodePoint) (s t : Text) :
    le (a :: s) (b :: t) = true ↔ a.val < b.val ∨ a = b ∧ s.le t = true := by
  rw [le, Bool.or_eq_true, Bool.and_eq_true, decide_eq_true_eq, beq_iff_eq]
  exact Iff.rfl

theorem le_total (s t : Text) : (s.le t || t.le s) = true := by
  rw [Bool.or_eq_true]
  induction s generalizing t with
  | nil => exact .inl (by simp [le])
  | cons a s ih =>
    cases t with
    | nil => exact .inr (by simp [le])
    | cons b t =>
      rw [le_cons_iff, le_cons_iff]
      rcases Nat.lt_trichotomy a.val b.val with lt | eq | gt
      · exact .inl (.inl lt)
      · obtain rfl := Fin.ext eq
        exact (ih t).imp (fun h => .inr ⟨rfl, h⟩) fun h => .inr ⟨rfl, h⟩
      · exact .inr (.inl gt)

theorem le_trans (s t u : Text) (hst : s.le t = true) (htu : t.le u = true) : s.le u = true := by
  induction s generalizing t u with
  | nil => simp [le]
  | cons a s ih =>
    cases t with
    | nil => cases hst
    | cons b t =>
      cases u with
      | nil => cases htu
      | cons c u =>
        rw [le_cons_iff] at hst htu ⊢
        rcases hst with ab | ⟨rfl, hst⟩
        · rcases htu with bc | ⟨rfl, _⟩
          · exact .inl (Nat.lt_trans ab bc)
          · exact .inl ab
        · rcases htu with ac | ⟨rfl, htu⟩
          · exact .inl ac
          · exact .inr ⟨rfl, ih t u hst htu⟩

theorem le_antisymm {s t : Text} (hst : s.le t = true) (hts : t.le s = true) : s = t := by
  induction s generalizing t with
  | nil =>
    cases t with
    | nil => rfl
    | cons b t => cases hts
  | cons a s ih =>
    cases t with
    | nil => cases hst
    | cons b t =>
      rw [le_cons_iff] at hst hts
      rcases hst with ab | ⟨rfl, hst⟩
      · rcases hts with ba | ⟨rfl, _⟩
        · exact absurd ab (Nat.lt_asymm ba)
        · exact absurd ab (Nat.lt_irrefl _)
      · rcases hts with aa | ⟨_, hts⟩
        · exact absurd aa (Nat.lt_irrefl _)
        · rw [ih hst hts]

/-- Comparing texts is comparing lists of code points. -/
theorem le_iff_lt_or_eq {s t : Text} : s.le t = true ↔ s < t ∨ s = t := by
  induction s generalizing t with
  | nil => cases t <;> simp [le]
  | cons a s ih =>
    cases t with
    | nil => simp [le]
    | cons b t =>
      rw [le_cons_iff, ih, List.cons_lt_cons_iff, List.cons.injEq, and_or_left, ← or_assoc]
      rfl

end SampleTypes.Text
