import SampleTypes.Proofs.Json.Reader
import SampleTypes.Proofs.Json.Unique
import SampleTypes.Proofs.Number.Decimal

/-!
# Words and numbers are read back

A word or a number that is read from a text of its own is read wherever the text stands, because no
delimiter goes on with it. So a number is kept by the forms of a value if a document of its text
holds it, and that is true of every whole number that is not too long.

## Main definitions

* `Json.StopsAtDelimiter` — a scanner that takes no more of a text than stands before a delimiter

## Main results

* `Json.scalar_append` — words and numbers are read before a delimiter
* `Json.spellsScalar_float` — a floating-point number that a document of its text holds
* `Json.spellsScalar_int` — a whole number of few enough digits
-/

namespace SampleTypes.Json

/-- What follows a delimiter makes no difference for a scanner, and is left. -/
def StopsAtDelimiter {α : Type} (scan : Text → α × Text) : Prop :=
  ∀ t rest, Delimited rest → scan (t ++ rest) = ((scan t).1, (scan t).2 ++ rest)

theorem ne_of_inWord {c d : CodePoint} (hc : inWord c = true) (hd : inWord d = false) : c ≠ d := by
  rintro rfl
  exact absurd (hd.symm.trans hc) (by decide)

theorem isDigit_eq_false {c : CodePoint} (hc : inWord c = false) : c.isDigit = false := by
  rw [← Bool.not_eq_true]
  exact fun digit => ne_of_inWord (inWord_of_isDigit digit) hc rfl

theorem Delimited.ne_of_inWord {d c : CodePoint} {rest : Text} (h : Delimited (d :: rest))
    (hc : inWord c = true) : d ≠ c :=
  (Json.ne_of_inWord hc h.inWord_eq_false).symm

/-! ## Scanners before a delimiter -/

/-- A scanner stops at delimiters if it takes nothing of a text that begins with one, and no more of
a longer text than stands before it. -/
theorem StopsAtDelimiter.of_cons {α : Type} {scan : Text → α × Text} {nothing : α}
    (nil : scan [] = (nothing, []))
    (outside : ∀ c rest, inWord c = false → scan (c :: rest) = (nothing, c :: rest))
    (inside : ∀ c t rest, Delimited rest →
      scan (c :: t ++ rest) = ((scan (c :: t)).1, (scan (c :: t)).2 ++ rest)) :
    StopsAtDelimiter scan := by
  intro t rest hrest
  cases t with
  | nil =>
    rw [List.nil_append, nil, List.nil_append]
    cases rest with
    | nil => exact nil
    | cons c rest => exact outside c rest hrest.inWord_eq_false
  | cons c t => exact inside c t rest hrest

theorem digits_stop :
    StopsAtDelimiter fun t => (t.takeWhile CodePoint.isDigit, t.dropWhile CodePoint.isDigit) := by
  intro t rest hrest
  induction t with
  | nil =>
    cases rest with
    | nil => rfl
    | cons c rest => simp [isDigit_eq_false hrest.inWord_eq_false]
  | cons c t ih =>
    simp only [Prod.mk.injEq] at ih
    by_cases digit : c.isDigit = true
    · simp [digit, ih]
    · simp [digit]

theorem takeWhole_stops : StopsAtDelimiter takeWhole := by
  refine .of_cons rfl (fun c rest hc => ?_) fun c t rest hrest => ?_
  · have notZero : c ≠ ofChar '0' := (ne_of_inWord (by decide) hc).symm
    simp [takeWhole, notZero, isDigit_eq_false hc]
  · have digits := digits_stop (c :: t) _ hrest
    simp only [Prod.mk.injEq] at digits
    by_cases zero : c = ofChar '0'
    · simp [takeWhole, zero]
    · simpa [takeWhole, zero] using digits

theorem takeFraction_stops : StopsAtDelimiter takeFraction := by
  refine .of_cons rfl (fun c rest hc => ?_) fun c t rest hrest => ?_
  · have noPoint : c ≠ ofChar '.' := (ne_of_inWord (by decide) hc).symm
    simp [takeFraction, noPoint]
  · have digits := digits_stop t _ hrest
    simp only [Prod.mk.injEq] at digits
    rw [List.cons_append, takeFraction, takeFraction]
    simp only [digits]
    split_ifs <;> rfl

theorem takeSign_stops : StopsAtDelimiter Binary64.takeSign := by
  refine .of_cons rfl (fun c rest hc => ?_) fun c t rest hrest => ?_
  · have noMinus : c ≠ ofChar '-' := (ne_of_inWord (by decide) hc).symm
    have noPlus : c ≠ ofChar '+' := (ne_of_inWord (by decide) hc).symm
    simp [Binary64.takeSign, noMinus, noPlus]
  · rw [List.cons_append, Binary64.takeSign, Binary64.takeSign]
    split_ifs <;> rfl

theorem takeExponent_stops : StopsAtDelimiter takeExponent := by
  refine .of_cons rfl (fun c rest hc => ?_) fun c t rest hrest => ?_
  · have noLetter : c.toLower ≠ ofChar 'e' := by
      have small : c ≠ ofChar 'e' := (ne_of_inWord (by decide) hc).symm
      have noCapital : c.isUpper = false := by
        simp only [inWord, CodePoint.isAlphanumeric, CodePoint.isLetter, Bool.or_eq_false_iff] at hc
        exact hc.1.1.1.1.1
      simpa [CodePoint.toLower, noCapital] using small
    simp [takeExponent, noLetter]
  · have sign := takeSign_stops t _ hrest
    have digits := digits_stop (Binary64.takeSign t).2 _ hrest
    simp only [Prod.mk.injEq] at digits
    rw [List.cons_append, takeExponent, takeExponent]
    simp only [sign, digits]
    split_ifs <;> rfl

theorem numeral?_append {rest : Text} (hrest : Delimited rest) (t : Text) :
    numeral? (t ++ rest) = (numeral? t).map fun (n, after) => (n, after ++ rest) := by
  have fraction (u : Text) := takeFraction_stops u _ hrest
  have exponent (u : Text) := takeExponent_stops u _ hrest
  cases t with
  | nil =>
    cases rest with
    | nil => rfl
    | cons c rest =>
      have none := takeWhole_stops [] _ hrest
      rw [List.nil_append] at none ⊢
      have noSign := hrest.ne_of_inWord (c := ofChar '-') (by decide)
      simp only [numeral?, if_neg noSign, none]
      rfl
  | cons c t =>
    have whole := takeWhole_stops (c :: t) _ hrest
    have whole' := takeWhole_stops t _ hrest
    rw [List.cons_append] at whole ⊢
    by_cases sign : c = ofChar '-'
    · simp only [numeral?, if_pos sign, whole', fraction, exponent]
      split_ifs <;> rfl
    · simp only [numeral?, if_neg sign, whole, fraction, exponent]
      split_ifs <;> rfl

/-! ## Words before a delimiter -/

theorem after?_append {word : Text} (hword : ∀ c ∈ word, inWord c = true) {rest : Text}
    (hrest : Delimited rest) (t : Text) :
    word.after? (t ++ rest) = (word.after? t).map (· ++ rest) := by
  induction word generalizing t with
  | nil => rfl
  | cons a word ih =>
    cases t with
    | nil =>
      cases rest with
      | nil => rfl
      | cons c rest =>
        have other : a ≠ c := (hrest.ne_of_inWord (hword a (List.mem_cons_self ..))).symm
        simp [Text.after?, other]
    | cons c t =>
      have same := ih (fun d hd => hword d (List.mem_cons_of_mem _ hd)) t
      rw [List.cons_append, Text.after?, Text.after?, same]
      split_ifs <;> rfl

theorem word?_append {rest : Text} (hrest : Delimited rest) (t : Text) :
    word? (t ++ rest) = (word? t).map fun (j, after) => (j, after ++ rest) := by
  have inWords : (words.all fun w => w.1.all inWord) = true := by decide
  rw [word?, word?]
  -- The first word that fits is the first before the delimiter, in whatever order they are tried.
  generalize words = ws at inWords ⊢
  induction ws with
  | nil => rfl
  | cons w ws ih =>
    obtain ⟨word, j⟩ := w
    obtain ⟨first, others⟩ := Bool.and_eq_true_iff.1 (List.all_cons ▸ inWords)
    simp only [List.findSome?_cons, ih others, after?_append (List.all_eq_true.1 first) hrest]
    cases word.after? t <;> rfl

/-- What is read of a word or a number is read before a delimiter. -/
theorem scalar_append {t after rest : Text} {j : Json} (h : scalar t = .ok (j, after))
    (hrest : Delimited rest) : scalar (t ++ rest) = .ok (j, after ++ rest) := by
  rw [scalar, word?_append hrest, numeral?_append hrest]
  rw [scalar] at h
  cases word : word? t with
  | some found =>
    rw [word] at h
    cases h
    rfl
  | none =>
    rw [word] at h
    cases numeral : numeral? t with
    | none =>
      rw [numeral] at h
      cases h
    | some found =>
      obtain ⟨n, left⟩ := found
      rw [numeral] at h
      obtain ⟨k, value, same⟩ := map_eq_ok_iff.1 h
      cases same
      exact map_eq_ok_iff.2 ⟨j, value, rfl⟩

theorem isBlank_eq_false {c : CodePoint} (hc : inWord c = true) : isBlank c = false := by
  have other {d : CodePoint} (hd : inWord d = false) : c ≠ d := ne_of_inWord hc hd
  simp [isBlank, other (d := ofChar ' ') (by decide), other (d := ofChar '\t') (by decide),
    other (d := ofChar '\n') (by decide), other (d := ofChar '\r') (by decide)]

theorem spellsScalar_of_scalar {t : Text} {j : Json} (nonempty : t ≠ [])
    (word : ∀ c ∈ t, inWord c = true) (h : scalar t = .ok (j, [])) : SpellsScalar j t := by
  obtain ⟨c, rest, rfl⟩ := List.exists_cons_of_ne_nil nonempty
  have first := word c (List.mem_cons_self ..)
  have other {d : CodePoint} (hd : inWord d = false) : c ≠ d := ne_of_inWord first hd
  exact ⟨⟨c, rest, rfl, isBlank_eq_false first, other (by decide), other (by decide),
    other (by decide)⟩, fun rest hrest => scalar_append h hrest⟩

/-! ## Documents of one word -/

/-- A document of one word holds the number or the other value that is read first in it. -/
theorem scalar_of_read {t : Text} {j : Json} (nonempty : t ≠ [])
    (word : ∀ c ∈ t, inWord c = true) (h : read t = .ok j) : scalar t = .ok (j, []) := by
  have noBlanks {u : Text} (hu : ∀ c ∈ u, inWord c = true) : skipBlanks u = u := by
    cases u with
    | nil => rfl
    | cons c u => exact skipBlanks_cons (isBlank_eq_false (hu c (List.mem_cons_self ..))) u
  obtain ⟨c, tail, rfl⟩ := List.exists_cons_of_ne_nil nonempty
  have other {d : CodePoint} (hd : inWord d = false) : c ≠ d :=
    ne_of_inWord (word c (List.mem_cons_self ..)) hd
  obtain ⟨⟨k, rest⟩, read, ends⟩ := bind_eq_ok_iff.1 (whole_of_read h)
  rw [noBlanks word, value_cons _ (other (by decide)) (other (by decide)) (other (by decide))]
    at read
  -- What is left of a word has no blanks, so nothing is left.
  have left : rest <:+ c :: tail := by
    have := scalar_reads (c :: tail)
    rwa [read] at this
  simp only [noBlanks fun d hd => word d (left.subset hd)] at ends
  cases rest with
  | nil =>
    cases ends
    exact read
  | cons d rest => cases ends

/-- A floating-point number is kept if a document of its text holds it. -/
theorem spellsScalar_float {x : Binary64} (h : read (numbers.write x) = .ok (.float x)) :
    SpellsScalar (.float x) (numbers.write x) := by
  obtain ⟨c, hc, -⟩ := List.any_eq_true.1 (isMarked_write x)
  have nonempty := List.ne_nil_of_mem hc
  have word : ∀ c ∈ numbers.write x, inWord c = true := inWord_of_mem_compact (j := .float x) rfl
  exact spellsScalar_of_scalar nonempty word (scalar_of_read nonempty word h)

/-! ## Whole numbers -/

theorem eq_append_of_after? {word t rest : Text} (h : word.after? t = some rest) :
    t = word ++ rest := by
  induction word generalizing t with
  | nil => exact Option.some.inj h
  | cons a word ih =>
    cases t with
    | nil => cases h
    | cons c t =>
      rw [Text.after?] at h
      split_ifs at h with same
      rw [same, ih h, List.cons_append]

/-- A text of digits and signs is no word. -/
theorem word?_eq_none_of_not_marked {t : Text} (h : isMarked t = false) : word? t = none := by
  have marked : ∀ w ∈ words, isMarked w.1 = true :=
    List.all_eq_true.1 (by decide : (words.all fun w => isMarked w.1) = true)
  rw [word?, List.findSome?_eq_none_iff]
  rintro ⟨word, j⟩ hw
  cases after : word.after? t with
  | none => simp [after]
  | some rest =>
    rw [eq_append_of_after? after, isMarked, List.any_append] at h
    exact absurd ((marked _ hw).symm.trans (Bool.or_eq_false_iff.1 h).1) (by decide)

theorem takeWhole_ofNat (n : Nat) : takeWhole (Text.ofNat n) = (Text.ofNat n, []) := by
  rcases Nat.eq_zero_or_pos n with rfl | positive
  · rfl
  · obtain ⟨d, rest, cons, first⟩ := Text.exists_ofNat_eq_cons positive
    have digits : ∀ c ∈ d :: rest, c.isDigit = true := fun c hc =>
      Text.isDigit_of_mem_ofNat (cons ▸ hc)
    rw [cons, takeWhole, if_neg first, List.takeWhile_eq_self_iff.2 digits,
      List.dropWhile_eq_nil_iff.2 digits]

theorem numeral?_ofInt (n : Int) :
    numeral? (Text.ofInt n) = some (⟨decide (n < 0), Text.ofNat n.natAbs, [], none⟩, []) := by
  have nonempty (m : Nat) : Text.ofNat m ≠ [] := by simp [Text.ofNat]
  cases n with
  | ofNat m =>
    obtain ⟨d, rest, cons⟩ := List.exists_cons_of_ne_nil (nonempty m)
    have digit : d.isDigit = true := Text.isDigit_of_mem_ofNat (cons ▸ List.mem_cons_self ..)
    have whole := takeWhole_ofNat m
    have noSign : d ≠ ofChar '-' := CodePoint.ne_of_isDigit digit rfl
    rw [cons] at whole
    simp [Text.ofInt, numeral?, cons, noSign, whole, takeFraction, takeExponent]
  | negSucc m =>
    have whole := takeWhole_ofNat (m + 1)
    simp [Text.ofInt, numeral?, whole, nonempty, takeFraction, takeExponent, Int.negSucc_lt_zero]

/-- A whole number of few enough digits is kept. -/
theorem spellsScalar_int {n : Int} (h : (Text.ofNat n.natAbs).length ≤ maxDigits) :
    SpellsScalar (.int n) (Text.ofInt n) := by
  have nonempty : Text.ofInt n ≠ [] := by cases n <;> simp [Text.ofInt, Text.ofNat]
  have signed : Binary64.signed (decide (n < 0)) n.natAbs = n := by
    rw [Binary64.signed]
    split_ifs with negative
    · simp only [decide_eq_true_eq] at negative
      omega
    · simp only [decide_eq_true_eq] at negative
      omega
  refine spellsScalar_of_scalar nonempty (inWord_of_mem_compact (j := .int n) rfl) ?_
  rw [scalar, word?_eq_none_of_not_marked (isMarked_ofInt n), numeral?_ofInt]
  simp [Numeral.value, wholeNumber, h, Text.toNat_ofNat, signed, Except.map]

end SampleTypes.Json
