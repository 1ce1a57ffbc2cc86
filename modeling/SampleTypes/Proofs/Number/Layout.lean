import Mathlib.Data.List.Basic
import Mathlib.Tactic.SplitIfs
import SampleTypes.Number.Layout

/-!
# The texts of numbers

A whole number is written with digits and perhaps a minus sign, and no two of them are written
alike. A floating-point number is written with digits and with the signs of its layout, of which at
least one is more than a minus sign.

## Main definitions

* `Layout.signs` — what floating-point numbers are written with, digits apart

## Main results

* `Text.ofInt_inj` — whole numbers are told apart by their texts
* `Layout.forall_mem_write` — what is true of all that floating-point numbers are written with
* `Layout.any_write` — a sign is among them
-/

namespace SampleTypes

/-! ## Whole numbers -/

namespace Text

theorem ofChar_inj {c d : Char} (h : ofChar c = ofChar d) : c = d := by
  have vals : (ofChar c).val = (ofChar d).val := by rw [h]
  exact Char.ext (UInt32.toNat_inj.1 vals)

theorem isDigit_of_mem_ofNat {n : Nat} {c : CodePoint} (h : c ∈ ofNat n) : c.isDigit = true := by
  obtain ⟨d, hd, rfl⟩ := List.mem_map.1 h
  have digit := Nat.isDigit_of_mem_toDigits (by decide) (by decide) hd
  simp only [Char.isDigit, Bool.and_eq_true, decide_eq_true_eq] at digit
  simp only [CodePoint.isDigit, Bool.and_eq_true]
  exact ⟨decide_eq_true digit.1, decide_eq_true digit.2⟩

theorem ofNat_inj {m n : Nat} (h : ofNat m = ofNat n) : m = n := by
  have digits : Nat.toDigits 10 m = Nat.toDigits 10 n :=
    List.map_injective_iff.2 (fun _ _ => ofChar_inj) h
  rw [← Nat.ofDigitChars_ten_toDigits (n := m), digits, Nat.ofDigitChars_ten_toDigits]

/-- A whole number is written with digits and a minus sign. -/
theorem mem_ofInt {n : Int} {c : CodePoint} (h : c ∈ ofInt n) :
    c.isDigit = true ∨ c = ofChar '-' := by
  cases n with
  | ofNat n => exact .inl (isDigit_of_mem_ofNat h)
  | negSucc n =>
    rcases List.mem_cons.1 h with rfl | h
    · exact .inr rfl
    · exact .inl (isDigit_of_mem_ofNat h)

theorem ofInt_inj {m n : Int} (h : ofInt m = ofInt n) : m = n := by
  -- A minus sign is no digit, so numbers of one text have one sign.
  have sign {m n : Nat} (h : ofNat m = ofChar '-' :: ofNat (n + 1)) : False := by
    have minus : ofChar '-' ∈ ofNat m := h ▸ List.mem_cons_self ..
    exact absurd (isDigit_of_mem_ofNat minus) (by decide)
  cases m with
  | ofNat m =>
    cases n with
    | ofNat n => rw [ofNat_inj h]
    | negSucc n => exact (sign h).elim
  | negSucc m =>
    cases n with
    | ofNat n => exact (sign h.symm).elim
    | negSucc n => rw [Nat.succ.inj (ofNat_inj (List.cons.inj h).2)]

end Text

/-! ## Floating-point numbers -/

namespace Layout

/-- What numbers are written with, digits apart. -/
def signs (l : Layout) : Text := Text.ofString ".e-+" ++ l.wholeEnd ++ l.nan ++ l.infinity

section

variable {l : Layout} {P : CodePoint → Prop}

theorem forall_mem_signs : (∀ c ∈ l.signs, P c) ↔
    (P (ofChar '.') ∧ P (ofChar 'e') ∧ P (ofChar '-') ∧ P (ofChar '+')) ∧
      (∀ c ∈ l.wholeEnd, P c) ∧ (∀ c ∈ l.nan, P c) ∧ ∀ c ∈ l.infinity, P c := by
  have own : Text.ofString ".e-+" = [ofChar '.', ofChar 'e', ofChar '-', ofChar '+'] := rfl
  simp only [signs, own, List.forall_mem_append, List.forall_mem_cons, List.not_mem_nil,
    false_implies, implies_true, and_true, and_assoc]

variable (digit : ∀ c : CodePoint, c.isDigit = true → P c) (signs : ∀ c ∈ l.signs, P c)
include digit

theorem forall_mem_padded (width n : Nat) : ∀ c ∈ padded width n, P c := by
  intro c hc
  rcases List.mem_append.1 hc with hc | hc
  · rw [List.eq_of_mem_replicate hc]
    exact digit _ (by decide)
  · exact digit c (Text.isDigit_of_mem_ofNat hc)

include signs

theorem forall_mem_positional {digits : Text} (h : ∀ c ∈ digits, P c) (point : Int) :
    ∀ c ∈ l.positional digits point, P c := by
  obtain ⟨⟨stop, -⟩, wholeEnd, -⟩ := forall_mem_signs.1 signs
  have zeros (n : Nat) : ∀ c ∈ List.replicate n (ofChar '0'), P c := fun c hc => by
    rw [List.eq_of_mem_replicate hc]
    exact digit _ (by decide)
  have start : ∀ c ∈ Text.ofString "0.", P c :=
    List.forall_mem_cons.2 ⟨digit _ (by decide), List.forall_mem_singleton.2 stop⟩
  simp only [positional]
  split_ifs
  · exact List.forall_mem_append.2 ⟨List.forall_mem_append.2 ⟨start, zeros _⟩, h⟩
  · refine List.forall_mem_append.2 ⟨?_, List.forall_mem_cons.2 ⟨stop, ?_⟩⟩
    · exact fun c hc => h c (List.mem_of_mem_take hc)
    · exact fun c hc => h c (List.mem_of_mem_drop hc)
  · exact List.forall_mem_append.2 ⟨List.forall_mem_append.2 ⟨h, zeros _⟩, wholeEnd⟩

theorem forall_mem_scientific {digits : Text} (h : ∀ c ∈ digits, P c) (point : Int) :
    ∀ c ∈ l.scientific digits point, P c := by
  obtain ⟨⟨stop, letter, minus, plus⟩, -⟩ := forall_mem_signs.1 signs
  have fraction : ∀ c ∈ digits.drop 1, P c := fun c hc => h c (List.mem_of_mem_drop hc)
  simp only [scientific]
  refine List.forall_mem_append.2 ⟨List.forall_mem_append.2 ⟨List.forall_mem_append.2 ⟨?_, ?_⟩,
    ?_⟩, forall_mem_padded digit _ _⟩
  · exact fun c hc => h c (List.mem_of_mem_take hc)
  · split_ifs
    · simp
    · exact List.forall_mem_cons.2 ⟨stop, fraction⟩
  · split_ifs <;> simp [letter, minus, plus]

/-- What is true of digits and signs is true of all that numbers are written with. -/
theorem forall_mem_write (x : Binary64) : ∀ c ∈ l.write x, P c := by
  obtain ⟨⟨-, -, minus, -⟩, wholeEnd, nan, infinity⟩ := forall_mem_signs.1 signs
  have digits (n : Nat) : ∀ c ∈ Text.ofNat n, P c := fun c hc =>
    digit c (Text.isDigit_of_mem_ofNat hc)
  have magnitude : ∀ c ∈ l.magnitude x, P c := by
    unfold Layout.magnitude
    split
    · exact nan
    · exact infinity
    · exact List.forall_mem_cons.2 ⟨digit _ (by decide), wholeEnd⟩
    · simp only [decimal]
      split_ifs
      · exact forall_mem_positional digit signs (digits _) _
      · exact forall_mem_scientific digit signs (digits _) _
  rw [write]
  split_ifs
  · exact List.forall_mem_cons.2 ⟨minus, magnitude⟩
  · exact magnitude

end

/-- A number is written with a point, with the letter of an exponent, or with a word, if whole
numbers have an end of their own. -/
theorem any_write {l : Layout} {p : CodePoint → Bool} (stop : p (ofChar '.') = true)
    (letter : p (ofChar 'e') = true) (wholeEnd : l.wholeEnd.any p = true)
    (nan : l.nan.any p = true) (infinity : l.infinity.any p = true) (x : Binary64) :
    (l.write x).any p = true := by
  have magnitude : (l.magnitude x).any p = true := by
    unfold Layout.magnitude
    split
    · exact nan
    · exact infinity
    · simp [wholeEnd]
    · simp only [decimal, positional, scientific]
      split_ifs <;> simp [Text.ofString, stop, letter, wholeEnd]
  rw [write]
  split_ifs
  · rw [List.any_cons, magnitude, Bool.or_true]
  · exact magnitude

end Layout

end SampleTypes
