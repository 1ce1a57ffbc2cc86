import Mathlib.Data.List.Infix
import Mathlib.Data.List.TakeWhile
import Mathlib.Tactic.SplitIfs
import SampleTypes.Proofs.Json.Grammar
import SampleTypes.Proofs.Stages

/-!
# Numbers that are too long

Of the faults of a document one is told apart from the others: a whole number with more digits than
are read. Every reader goes on from the front of its text and stops for such a number only if the
digits stand there in a row, so a document in which no row of digits is that long has no such fault.

## Main definitions

* `Json.HoldsRun` — a text in which so many digits stand in a row
* `Json.Reads` — what a reader returns of a text: an ending of it, or a stop that it causes
* `Json.StopsAtNumber` — a document in which the first fault is a number that is too long

## Main results

* `Json.readValues` — the readers of values, items and members
* `Json.StopsAtNumber.holdsRun` — the number stands in the document
* `Json.stopsAtNumber_of_digits` — a document of too many digits stops there
-/

namespace SampleTypes.Json

/-- Somewhere in a text so many decimal digits stand in a row. -/
def HoldsRun (digits : Nat) (t : Text) : Prop :=
  ∃ run, run <:+: t ∧ run.length = digits ∧ ∀ d ∈ run, d.isDigit = true

/-- What a reader returns of a text: a result, of which this is the text that is left, or why it
stopped. A number that is too long stands in the text. -/
def Reads {α : Type} (left : α → Text) (t : Text) : Except Stop α → Prop
  | .ok a => left a <:+ t
  | .error (.problem _ _) => True
  | .error (.integerTooLong digits) => maxDigits < digits ∧ HoldsRun digits t

namespace Reads

variable {α β : Type} {left : α → Text} {left' : β → Text} {s t : Text}

theorem of_suffix {x : Except Stop α} (h : Reads left s x) (hs : s <:+ t) : Reads left t x := by
  match x, h with
  | .ok _, h => exact h.trans hs
  | .error (.problem _ _), _ => trivial
  | .error (.integerTooLong _), ⟨long, run, inside, digits⟩ =>
    exact ⟨long, run, inside.trans hs.isInfix, digits⟩

/-- One reader goes on where another stopped. -/
theorem bind {x : Except Stop α} {f : α → Except Stop β} (h : Reads left t x)
    (hf : ∀ a, Reads left' (left a) (f a)) : Reads left' t (x >>= f) := by
  match x, h with
  | .ok a, h => exact (hf a).of_suffix h
  | .error (.problem _ _), _ => trivial
  | .error (.integerTooLong _), h => exact h

theorem map {f : α → β} {x : Except Stop α} (h : Reads left t x)
    (hf : ∀ a, left' (f a) = left a) : Reads left' t (x.map f) := by
  match x, h with
  | .ok a, h =>
    have same : left' (f a) <:+ t := hf a ▸ h
    exact same
  | .error (.problem _ _), _ => trivial
  | .error (.integerTooLong _), h => exact h

/-- A reader that only looks takes nothing from the text. -/
theorem peek {x : Except Stop α} (h : Reads left t x) : Reads (fun _ => t) t x := by
  match x, h with
  | .ok _, _ => exact List.suffix_refl t
  | .error (.problem _ _), _ => trivial
  | .error (.integerTooLong _), h => exact h

end Reads

/-! ## Blanks, marks and strings -/

variable {t : Text}

theorem skipBlanks_suffix (t : Text) : skipBlanks t <:+ t := List.dropWhile_suffix _

theorem expect_reads (c : Char) (p : Problem) (t : Text) : Reads id t (expect c p t) := by
  cases t with
  | nil => trivial
  | cons d rest =>
    rw [expect]
    split
    · exact List.suffix_cons ..
    · trivial

theorem stringFrom_reads (opening : Text) (afterHigh : Bool) (before t : Text) :
    Reads Prod.snd t (stringFrom opening afterHigh before t) := by
  -- Along the string: after an escape it goes on further down the text.
  fun_induction stringFrom opening afterHigh before t with
  | case2 => exact List.suffix_cons ..
  | case4 _ _ h₁ h₂ h₃ h₄ rest _ _ _ _ _ ih =>
    exact ih.of_suffix (List.suffix_append [ofChar '\\', ofChar 'u', h₁, h₂, h₃, h₄] rest)
  | case7 _ _ e rest _ _ _ _ ih =>
    exact ih.of_suffix (List.suffix_append [ofChar '\\', e] rest)
  | case10 _ _ _ _ _ _ _ ih => exact ih.of_suffix (List.suffix_cons ..)
  | _ => trivial

theorem stringAt_reads (t : Text) : Reads Prod.snd t (stringAt t) :=
  (stringFrom_reads t false [] _).of_suffix (List.drop_suffix 1 t)

/-! ## Numbers -/

variable {rest : Text}

/-- The digits before the point are a beginning of the text. -/
theorem takeWhole_spec (t : Text) :
    t = (takeWhole t).1 ++ (takeWhole t).2 ∧ ∀ d ∈ (takeWhole t).1, d.isDigit = true := by
  cases t with
  | nil => simp [takeWhole]
  | cons c t =>
    rw [takeWhole]
    split_ifs with zero
    · exact ⟨rfl, List.forall_mem_singleton.2 (by rw [zero]; decide)⟩
    · exact ⟨(List.takeWhile_append_dropWhile ..).symm, fun d hd => List.mem_takeWhile_imp hd⟩

theorem takeFraction_suffix (t : Text) : (takeFraction t).2 <:+ t := by
  cases t with
  | nil => exact List.suffix_refl []
  | cons c t =>
    rw [takeFraction]
    split_ifs
    · exact (List.dropWhile_suffix _).trans (List.suffix_cons ..)
    · exact List.suffix_refl _

theorem takeExponent_suffix (t : Text) : (takeExponent t).2 <:+ t := by
  cases t with
  | nil => exact List.suffix_refl []
  | cons c t =>
    have sign := (Binary64.takeSign_suffix t).trans (List.suffix_cons c t)
    rw [takeExponent]
    simp only
    split_ifs
    · exact (List.dropWhile_suffix _).trans sign
    · exact List.suffix_refl _

/-- The digits of a number before its point stand in the text in a row, and what follows the number
comes after them. -/
theorem numeral_taken {n : Numeral} (h : numeral? t = some (n, rest)) :
    n.whole <:+: t ∧ (∀ d ∈ n.whole, d.isDigit = true) ∧ rest <:+ t := by
  obtain ⟨u, hu, whole, left⟩ : ∃ u, u <:+ t ∧ n.whole = (takeWhole u).1 ∧
      rest = (takeExponent (takeFraction (takeWhole u).2).2).2 := by
    simp only [numeral?] at h
    split at h
    next c inner =>
      split_ifs at h
      · cases h
        exact ⟨inner, List.suffix_cons .., rfl, rfl⟩
      · cases h
        exact ⟨c :: inner, List.suffix_refl _, rfl, rfl⟩
    · split_ifs at h
      cases h
      exact ⟨[], List.suffix_refl _, rfl, rfl⟩
  obtain ⟨taken, digits⟩ := takeWhole_spec u
  have inner : (takeWhole u).2 <:+ u := ⟨_, taken.symm⟩
  rw [whole, left]
  refine ⟨?_, digits, ?_⟩
  · have front : (takeWhole u).1 <+: u := ⟨_, taken.symm⟩
    exact front.isInfix.trans hu.isInfix
  · exact ((takeExponent_suffix _).trans (takeFraction_suffix _)).trans (inner.trans hu)

theorem scalar_reads (t : Text) : Reads Prod.snd t (scalar t) := by
  rw [scalar]
  split
  next found word =>
    obtain ⟨⟨w, j⟩, -, here⟩ := List.exists_of_findSome?_eq_some word
    obtain ⟨rest, after, rfl⟩ := Option.map_eq_some_iff.1 here
    exact Text.after_suffix after
  split
  next n rest h =>
    obtain ⟨inside, digits, suffix⟩ := numeral_taken h
    have reads : Reads (fun _ => rest) t n.value := by
      rw [Numeral.value]
      split_ifs
      · rw [wholeNumber]
        split_ifs with short
        · exact suffix
        · exact ⟨Nat.lt_of_not_le short, n.whole, inside, rfl, digits⟩
      · exact suffix
    exact reads.map fun _ => rfl
  · trivial

/-! ## Values -/

/-- The readers of values, of items and of members with so much fuel. -/
structure ReadValues (fuel : Nat) : Prop where
  value : ∀ t, Reads Prod.snd t (value fuel t)
  items : ∀ before t, Reads Prod.snd t (items fuel before t)
  members : ∀ before t, Reads Prod.snd t (members fuel before t)

theorem value_reads_succ {fuel : Nat} (h : ReadValues fuel) (t : Text) :
    Reads Prod.snd t (value (fuel + 1) t) := by
  rw [value.eq_def]
  simp only
  split
  · trivial
  next c inner =>
    have rest_suffix : skipBlanks inner <:+ c :: inner :=
      (skipBlanks_suffix inner).trans (List.suffix_cons ..)
    split_ifs
    · exact (stringAt_reads _).map fun _ => rfl
    · split
      · exact (h.items [] []).of_suffix List.nil_suffix
      next d rest skipped =>
        rw [skipped] at rest_suffix
        split_ifs
        · exact (List.suffix_cons ..).trans rest_suffix
        · exact (h.items [] _).of_suffix rest_suffix
    · split
      · exact (h.members [] []).of_suffix List.nil_suffix
      next d rest skipped =>
        rw [skipped] at rest_suffix
        split_ifs
        · exact (List.suffix_cons ..).trans rest_suffix
        · exact (h.members [] _).of_suffix rest_suffix
    · exact scalar_reads _

/-- After a value: the bracket that closes, or a comma and more. -/
theorem separated_reads {close : CodePoint} {closed : Json}
    {more : Text → Except Stop (Json × Text)} (hmore : ∀ t, Reads Prod.snd t (more t)) (t : Text) :
    Reads Prod.snd t
      (match skipBlanks t with
      | [] => .error (.problem .comma [])
      | c :: rest =>
        if c = close then return (closed, rest)
        else if c = ofChar ',' then more (skipBlanks rest)
        else .error (.problem .comma (c :: rest))) := by
  have rest_suffix := skipBlanks_suffix t
  split
  · trivial
  next c rest skipped =>
    rw [skipped] at rest_suffix
    have after : rest <:+ t := (List.suffix_cons ..).trans rest_suffix
    split_ifs
    · exact after
    · exact (hmore _).of_suffix ((skipBlanks_suffix rest).trans after)
    · trivial

theorem items_reads_succ {fuel : Nat} (h : ReadValues fuel) (before : List Json) (t : Text) :
    Reads Prod.snd t (items (fuel + 1) before t) := by
  rw [items.eq_def]
  refine (h.value t).bind ?_
  rintro ⟨item, rest⟩
  exact separated_reads (h.items _) rest

theorem members_reads_succ {fuel : Nat} (h : ReadValues fuel) (before : List (Text × Json))
    (t : Text) : Reads Prod.snd t (members (fuel + 1) before t) := by
  rw [members.eq_def]
  -- The quotation mark is looked at and stays.
  refine (expect_reads _ _ t).peek.bind fun _ => ?_
  refine (stringAt_reads t).bind ?_
  rintro ⟨name, rest⟩
  refine ((expect_reads _ _ _).of_suffix (skipBlanks_suffix rest)).bind fun rest => ?_
  refine ((h.value _).of_suffix (skipBlanks_suffix rest)).bind ?_
  rintro ⟨item, rest⟩
  exact separated_reads (h.members _) rest

theorem readValues (fuel : Nat) : ReadValues fuel := by
  induction fuel with
  | zero => exact ⟨fun _ => trivial, fun _ _ => trivial, fun _ _ => trivial⟩
  | succ fuel ih => exact ⟨value_reads_succ ih, items_reads_succ ih, members_reads_succ ih⟩

/-! ## Documents -/

/-- A document in which the first fault is a number that is too long to be read. -/
def StopsAtNumber (document : Text) : Prop :=
  ∃ digits, read document = .error (.integerTooLong digits)

theorem stopsAtNumber_iff {document : Text} :
    StopsAtNumber document ↔ document.head? ≠ some (ofChar '\uFEFF') ∧
      ∃ digits, whole document = .error (.integerTooLong digits) := by
  rw [StopsAtNumber, read]
  split_ifs with mark
  · simp [mark]
  · cases whole document with
    | ok j => simp
    | error stop => cases stop <;> simp [mark]

/-- The number stands in the document. -/
theorem StopsAtNumber.holdsRun {document : Text} (h : StopsAtNumber document) :
    ∃ digits, maxDigits < digits ∧ HoldsRun digits document := by
  obtain ⟨-, digits, h⟩ := stopsAtNumber_iff.1 h
  have reads : Reads (fun _ => []) document (whole document) := by
    refine (((readValues _).value _).of_suffix (skipBlanks_suffix document)).bind ?_
    rintro ⟨j, rest⟩
    simp only
    split
    · exact List.nil_suffix
    · trivial
  rw [h] at reads
  exact ⟨digits, reads⟩

/-- A document that is read is read as a whole. -/
theorem whole_of_read {t : Text} {j : Json} (h : read t = .ok j) : whole t = .ok j := by
  rw [read] at h
  split_ifs at h
  cases held : whole t with
  | ok k =>
    rw [held] at h
    cases h
    rfl
  | error stop =>
    rw [held] at h
    cases stop <;> cases h

/-! ## Documents of digits -/

theorem numeral_digits {d : CodePoint} {digits : Text} (h : ∀ c ∈ d :: digits, c.isDigit = true)
    (first : d ≠ ofChar '0') :
    numeral? (d :: digits) = some (⟨false, d :: digits, [], none⟩, []) := by
  have noSign : d ≠ ofChar '-' := CodePoint.ne_of_isDigit (h d (List.mem_cons_self ..)) rfl
  have whole : takeWhole (d :: digits) = (d :: digits, []) := by
    rw [takeWhole, if_neg first, List.takeWhile_eq_self_iff.2 h, List.dropWhile_eq_nil_iff.2 h]
  simp [numeral?, noSign, whole, takeFraction, takeExponent]

/-- A document of more digits than are read, without a zero in front. -/
theorem stopsAtNumber_of_digits {digits : Text} (h : ∀ d ∈ digits, d.isDigit = true)
    (first : digits.head? ≠ some (ofChar '0')) (long : maxDigits < digits.length) :
    StopsAtNumber digits := by
  cases digits with
  | nil => simp at long
  | cons d digits =>
    have other {c : Char} (hc : (ofChar c).isDigit = false) : d ≠ ofChar c :=
      CodePoint.ne_of_isDigit (h d (List.mem_cons_self ..)) hc
    have noWord : word? (d :: digits) = none := by
      have noDigit : ("ntfNI".toList.all fun c => !(ofChar c).isDigit) = true := rfl
      refine word_eq_none (other rfl) (List.all_eq_true.2 fun c hc => ?_) digits
      exact bne_iff_ne.2 (other (by simpa using List.all_eq_true.1 noDigit c hc))
    have tooLong : wholeNumber false (d :: digits) =
        .error (.integerTooLong (d :: digits).length) := by
      rw [wholeNumber, if_neg (Nat.not_le.2 long)]
    have stops : scalar (d :: digits) = .error (.integerTooLong (d :: digits).length) := by
      have notZero : d ≠ ofChar '0' := fun zero => first (congrArg some zero)
      rw [scalar, noWord, numeral_digits h notZero]
      simp [Numeral.value, tooLong, Except.map]
    have noBlank : isBlank d = false := by
      simp [isBlank, other (c := ' ') rfl, other (c := '\t') rfl, other (c := '\n') rfl,
        other (c := '\r') rfl]
    refine stopsAtNumber_iff.2 ⟨fun mark => ?_, (d :: digits).length, ?_⟩
    · exact other rfl (Option.some.inj mark)
    · rw [whole, skipBlanks_cons noBlank, value_cons _ (other rfl) (other rfl) (other rfl), stops]
      rfl

end SampleTypes.Json
