import Mathlib.Data.List.Infix
import Mathlib.Data.List.TakeWhile
import SampleTypes.Proofs.Text.Ascii

/-!
# Control sequences in texts

Printing a text takes its control sequences out. A text is printed as it is exactly if no control
sequence stands in it. In a text that is put together from parts, no sequence begins in a part
without an escape, and none goes over a code point that stands in no sequence.

## Main definitions

* `Text.IsControl`, `Text.HoldsControl` — control sequences, and texts in which one stands

## Main results

* `Text.stripControls_eq_self_iff` — which texts are printed as they are
* `Text.holdsControl_append`, `Text.holdsControl_append_cons` — control sequences in parts of texts
* `Text.encodable_stripControls` — no surrogate is taken out
-/

namespace SampleTypes.Text

/-- An escape, an opening bracket, parameters, and a letter. -/
def IsControl (s : Text) : Prop :=
  ∃ parameters letter, s = ofChar '\x1b' :: ofChar '[' :: (parameters ++ [letter]) ∧
    (∀ c ∈ parameters, isParameter c = true) ∧ letter.isLetter = true

/-- Somewhere in a text stands a control sequence. -/
def HoldsControl (t : Text) : Prop := ∃ s, IsControl s ∧ s <:+: t

variable {c : CodePoint} {s t rest : Text}

/-! ## Control sequences at the front -/

theorem isParameter_of_isLetter (h : c.isLetter = true) : isParameter c = false := by
  have letter : 0x41 ≤ c.val := by
    simp only [CodePoint.isLetter, CodePoint.isUpper, CodePoint.isLower, Bool.or_eq_true,
      Bool.and_eq_true, decide_eq_true_eq] at h
    omega
  have other (d : Char) (hd : (ofChar d).val < 0x41) : c ≠ ofChar d := by
    rintro rfl
    omega
  simp [isParameter, CodePoint.isDigit, other ';' (by decide), other '?' (by decide)]
  omega

theorem afterControl?_eq_some_iff :
    afterControl? t = some rest ↔ ∃ s, IsControl s ∧ ofChar '\x1b' :: t = s ++ rest := by
  constructor
  · intro after
    cases t with
    | nil => cases after
    | cons c inner =>
      rw [afterControl?] at after
      split_ifs at after with bracket
      have parts := List.takeWhile_append_dropWhile (p := isParameter) (l := inner)
      split at after
      · cases after
      next letter rest' left =>
        split_ifs at after with isLetter
        cases after
        rw [left] at parts
        refine ⟨_, ⟨inner.takeWhile isParameter, letter, rfl, fun _ => List.mem_takeWhile_imp,
          isLetter⟩, ?_⟩
        simp [bracket, parts]
  · rintro ⟨_, ⟨parameters, letter, rfl, inside, isLetter⟩, same⟩
    obtain rfl : t = ofChar '[' :: (parameters ++ letter :: rest) := by simpa using same
    have left : (parameters ++ letter :: rest).dropWhile isParameter = letter :: rest := by
      rw [List.dropWhile_append_of_pos inside,
        List.dropWhile_cons_of_neg (by simp [isParameter_of_isLetter isLetter])]
    simp [afterControl?, left, isLetter]

theorem IsControl.head (h : IsControl s) : s.head? = some (ofChar '\x1b') := by
  obtain ⟨_, _, rfl, _⟩ := h
  rfl

theorem IsControl.encodable (h : IsControl s) : s.Encodable := by
  obtain ⟨parameters, letter, rfl, inside, isLetter⟩ := h
  have below {c : CodePoint} (low : c.val < 0x80) : c.isSurrogate = false := by
    simp only [CodePoint.isSurrogate, Bool.and_eq_false_iff, decide_eq_false_iff_not]
    omega
  have lowParameter : ∀ c ∈ parameters, c.isSurrogate = false := by
    intro c hc
    have parameter := inside c hc
    simp only [isParameter, CodePoint.isDigit, Bool.or_eq_true, Bool.and_eq_true,
      decide_eq_true_eq, beq_iff_eq] at parameter
    obtain (⟨_, _⟩ | rfl) | rfl := parameter
    · exact below (by omega)
    · exact below (by decide)
    · exact below (by decide)
  have lowLetter : letter.isSurrogate = false := by
    simp only [CodePoint.isLetter, CodePoint.isUpper, CodePoint.isLower, Bool.or_eq_true,
      Bool.and_eq_true, decide_eq_true_eq] at isLetter
    exact below (by omega)
  rw [encodable_cons, encodable_cons, encodable_append]
  exact ⟨by decide, by decide, lowParameter, List.forall_mem_singleton.2 lowLetter⟩

theorem not_holdsControl_nil : ¬ HoldsControl [] := by
  rintro ⟨s, h, inside⟩
  rw [List.infix_nil.1 inside] at h
  cases h.head

/-- A control sequence stands at the front of a text or further down. -/
theorem holdsControl_cons :
    HoldsControl (c :: t) ↔
      (c = ofChar '\x1b' ∧ ∃ rest, afterControl? t = some rest) ∨ HoldsControl t := by
  constructor
  · rintro ⟨s, h, inside⟩
    rcases List.infix_cons_iff.1 inside with ⟨rest, front⟩ | inside
    · have escape : some (ofChar '\x1b') = some c := by
        have first := congrArg List.head? front
        rwa [List.head?_append, h.head] at first
      obtain rfl := Option.some.inj escape
      exact .inl ⟨rfl, rest, afterControl?_eq_some_iff.2 ⟨s, h, front.symm⟩⟩
    · exact .inr ⟨s, h, inside⟩
  · rintro (⟨rfl, rest, after⟩ | ⟨s, h, inside⟩)
    · obtain ⟨s, h, front⟩ := afterControl?_eq_some_iff.1 after
      exact ⟨s, h, front ▸ (List.prefix_append s rest).isInfix⟩
    · exact ⟨s, h, List.infix_cons inside⟩

/-! ## What is taken out -/

theorem length_stripControls_le (t : Text) : t.stripControls.length ≤ t.length := by
  fun_induction stripControls t with
  | case1 => exact Nat.le_refl _
  | case2 rest rest' after ih =>
    have shorter := length_lt_of_afterControl? after
    rw [List.length_cons]
    omega
  | case3 rest _ ih => exact Nat.succ_le_succ ih
  | case4 c rest _ ih => exact Nat.succ_le_succ ih

/-- A text is printed as it is exactly if no control sequence stands in it. -/
theorem stripControls_eq_self_iff (t : Text) : t.stripControls = t ↔ ¬ HoldsControl t := by
  fun_induction stripControls t with
  | case1 => exact iff_of_true rfl not_holdsControl_nil
  | case2 rest rest' after ih =>
    -- The text gets shorter, and stays so.
    refine iff_of_false (fun same => ?_) (not_not.2 (holdsControl_cons.2 (.inl ⟨rfl, _, after⟩)))
    have shorter := length_lt_of_afterControl? after
    have stripped := length_stripControls_le rest'
    rw [same, List.length_cons] at stripped
    omega
  | case3 rest after ih => simp [holdsControl_cons, ih, after]
  | case4 c rest escape ih => simp [holdsControl_cons, ih, escape]

/-- No surrogate stands in a control sequence, so none is taken out. -/
theorem encodable_stripControls (t : Text) : t.stripControls.Encodable ↔ t.Encodable := by
  fun_induction stripControls t with
  | case1 => rfl
  | case2 rest rest' after ih =>
    obtain ⟨s, h, same⟩ := afterControl?_eq_some_iff.1 after
    rw [ih, same, encodable_append]
    exact (and_iff_right h.encodable).symm
  | case3 rest after ih => rw [encodable_cons, encodable_cons, ih]
  | case4 c rest escape ih => rw [encodable_cons, encodable_cons, ih]

/-! ## Texts in parts -/

/-- Where there is no escape no control sequence begins. -/
theorem holdsControl_append (h : ofChar '\x1b' ∉ s) : HoldsControl (s ++ t) ↔ HoldsControl t := by
  induction s with
  | nil => rfl
  | cons c s ih =>
    rw [List.mem_cons, not_or] at h
    rw [List.cons_append, holdsControl_cons, ih h.2]
    simp [Ne.symm h.1]

theorem Ascii.escape_notMem (h : Ascii t) : ofChar '\x1b' ∉ t :=
  fun mem => absurd (h _ mem) (by decide)

theorem not_holdsControl_of_notMem (h : ofChar '\x1b' ∉ t) : ¬ HoldsControl t := by
  rw [← List.append_nil t, holdsControl_append h]
  exact not_holdsControl_nil

/-- What does not hold a code point stands before it or behind it. -/
theorem infix_of_infix_append_cons (outside : c ∉ rest) (h : rest <:+: s ++ c :: t) :
    rest <:+: s ∨ rest <:+: t := by
  obtain ⟨front, back, same⟩ := h
  rcases List.append_eq_append_iff.1 same with ⟨u, rfl, _⟩ | ⟨u, here, behind⟩
  · exact .inl ⟨front, u, rfl⟩
  cases u with
  | nil => exact .inl ⟨front, [], by simpa using here⟩
  | cons d u =>
    obtain ⟨rfl, rfl⟩ := List.cons.inj behind
    rcases List.append_eq_append_iff.1 here with ⟨v, rfl, there⟩ | ⟨v, rfl, there⟩
    · exact absurd (by simp [there]) outside
    · cases v with
      | nil =>
        obtain rfl : c :: u = rest := there
        exact absurd (List.mem_cons_self ..) outside
      | cons e v =>
        obtain ⟨rfl, rfl⟩ := List.cons.inj there
        exact .inr ⟨v, back, rfl⟩

/-- No control sequence goes over a code point that stands in none. -/
theorem holdsControl_append_cons (escape : c ≠ ofChar '\x1b') (bracket : c ≠ ofChar '[')
    (parameter : isParameter c = false) (letter : c.isLetter = false) :
    HoldsControl (s ++ c :: t) ↔ HoldsControl s ∨ HoldsControl t := by
  constructor
  · rintro ⟨u, h, inside⟩
    have outside : c ∉ u := by
      obtain ⟨parameters, last, rfl, inside, isLetter⟩ := h
      have notParameter : c ∉ parameters := fun mem => by simp [inside c mem] at parameter
      have notLast : c ≠ last := by
        rintro rfl
        simp [isLetter] at letter
      simp [escape, bracket, notParameter, notLast]
    exact (infix_of_infix_append_cons outside inside).imp (⟨u, h, ·⟩) (⟨u, h, ·⟩)
  · rintro (⟨u, h, inside⟩ | ⟨u, h, inside⟩)
    · exact ⟨u, h, inside.trans (List.prefix_append ..).isInfix⟩
    · exact ⟨u, h, inside.trans ((List.suffix_cons c t).trans (List.suffix_append ..)).isInfix⟩

end SampleTypes.Text
