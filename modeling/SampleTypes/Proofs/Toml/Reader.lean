import SampleTypes.Proofs.Stages
import SampleTypes.Proofs.Toml.Scalar
import SampleTypes.Toml.Reader

/-!
# Numbers that are too long

Reading a document goes on from the front of the text to its end, and the one fault that is told
apart from the others has its cause in the document: a whole decimal number with more digits than
are read. Every reader keeps this, so it is stated once of what a reader returns and carried
through one stage after another.

## Main definitions

* `Toml.HoldsWhole` — a text in which a whole decimal number of so many digits begins
* `Toml.Reads` — what a reader returns of a text: an ending of it, or a fault that it causes
* `Toml.StopsAtNumber` — a document in which the first fault is a number that is too long

## Main results

* `Toml.readValues`, `Toml.statement_reads`, `Toml.lines_reads` — values, statements, documents
* `Toml.not_stopsAtNumber` — a document with few digits has no number that is too long
-/

namespace SampleTypes.Toml

/-- Somewhere in a text begins a whole decimal number of so many digits. -/
def HoldsWhole (digits : Nat) (t : Text) : Prop :=
  ∃ s, s <:+ t ∧ ∃ n rest, numeral? s = some (n, rest) ∧ n.fraction = [] ∧ n.exponent = none ∧
    n.whole.length = digits

theorem HoldsWhole.of_suffix {digits : Nat} {s t : Text} (h : HoldsWhole digits s)
    (hs : s <:+ t) : HoldsWhole digits t := by
  obtain ⟨u, hu, number⟩ := h
  exact ⟨u, hu.trans hs, number⟩

/-- A text has at least the digits of a number in it. -/
theorem HoldsWhole.le_countP {digits : Nat} {t : Text} (h : HoldsWhole digits t) :
    digits ≤ t.countP CodePoint.isDigit := by
  obtain ⟨s, hs, n, rest, numeral, -, -, rfl⟩ := h
  have taken := (numeral_taken numeral).after hs
  calc n.whole.length = n.whole.countP CodePoint.isDigit :=
        (List.countP_eq_length.2 taken.digits).symm
    _ ≤ t.countP CodePoint.isDigit := taken.sublist.countP_le

/-- What a reader returns of a text: a result, of which this is the text that is left, or a fault.
A number that is too long stands in the text. -/
def Reads {α : Type} (left : α → Text) (t : Text) : Except Fault α → Prop
  | .ok a => left a <:+ t
  | .error .malformed => True
  | .error (.integerTooLong digits) => Json.maxDigits < digits ∧ HoldsWhole digits t

namespace Reads

variable {α β : Type} {left : α → Text} {left' : β → Text} {s t : Text}

theorem of_suffix {x : Except Fault α} (h : Reads left s x) (hs : s <:+ t) : Reads left t x := by
  match x, h with
  | .ok _, h => exact h.trans hs
  | .error .malformed, _ => trivial
  | .error (.integerTooLong _), h => exact ⟨h.1, h.2.of_suffix hs⟩

/-- One reader goes on where another stopped. -/
theorem bind {x : Except Fault α} {f : α → Except Fault β} (h : Reads left t x)
    (hf : ∀ a, Reads left' (left a) (f a)) : Reads left' t (x >>= f) := by
  match x, h with
  | .ok a, h => exact (hf a).of_suffix h
  | .error .malformed, _ => trivial
  | .error (.integerTooLong _), h => exact h

theorem map {f : α → β} {x : Except Fault α} (h : Reads left t x)
    (hf : ∀ a, left' (f a) = left a) : Reads left' t (x.map f) := by
  match x, h with
  | .ok a, h =>
    have : left' (f a) <:+ t := hf a ▸ h
    exact this
  | .error .malformed, _ => trivial
  | .error (.integerTooLong _), h => exact h

/-- A reader that does not tell faults apart. -/
theorem orMalformed (left : α → Text) {o : Option α} (h : ∀ a, o = some a → left a <:+ t) :
    Reads left t (orMalformed o) := by
  cases o with
  | none => trivial
  | some a => exact h a rfl

end Reads

/-! ## Blanks and keys -/

variable {t : Text}

theorem skipBlanks_suffix (t : Text) : skipBlanks t <:+ t := List.dropWhile_suffix _

theorem skipComment_reads (t : Text) : Reads id t (skipComment t) := by
  rw [skipComment]
  split
  · exact List.suffix_refl t
  next inner mark =>
    split_ifs
    · trivial
    · exact (List.dropWhile_suffix _).trans (drop_suffix mark)

theorem skipSpaceFrom_reads (inComment : Bool) (t : Text) :
    Reads id t (skipSpaceFrom inComment t) := by
  induction t generalizing inComment with
  | nil => exact List.suffix_refl []
  | cons c t ih =>
    have next (inComment : Bool) : Reads id (c :: t) (skipSpaceFrom inComment t) :=
      (ih inComment).of_suffix (List.suffix_cons ..)
    rw [skipSpaceFrom]
    split_ifs
    · exact next false
    · trivial
    · exact next true
    · exact next false
    · exact next true
    · exact List.suffix_refl _

theorem skipSpace_reads (t : Text) : Reads id t (skipSpace t) := skipSpaceFrom_reads false t

theorem name_suffix {name rest : Text} (h : name? t = some (name, rest)) : rest <:+ t := by
  rw [name?] at h
  split at h
  · exact lineString_suffix h
  · cases h
    exact List.dropWhile_suffix _

theorem keyFrom_reads (parent : Path) (fuel : Nat) (t : Text) :
    Reads Prod.snd t (keyFrom parent fuel t) := by
  induction fuel generalizing parent t with
  | zero => trivial
  | succ fuel ih =>
    rw [keyFrom]
    refine Reads.bind (.orMalformed Prod.snd fun a h => name_suffix h) ?_
    rintro ⟨name, rest⟩
    simp only
    split
    next inner point =>
      exact (ih _ _).of_suffix ((skipBlanks_suffix inner).trans
        ((drop_suffix point).trans (skipBlanks_suffix rest)))
    · exact skipBlanks_suffix rest

theorem key_reads (t : Text) : Reads Prod.snd t (key t) := keyFrom_reads [] _ t

theorem keyEquals_reads (t : Text) : Reads Prod.snd t (keyEquals t) := by
  refine (key_reads t).bind ?_
  rintro ⟨k, rest⟩
  refine Reads.bind (.orMalformed id fun a h => drop_suffix h) fun after => ?_
  exact skipBlanks_suffix after

/-! ## Values -/

/-- A decimal number is a fault only by the number of its digits. -/
theorem numeralValue_reads {n : Json.Numeral} {rest : Text} (h : numeral? t = some (n, rest)) :
    Reads (fun _ => rest) t (numeralValue n) := by
  have suffix := (numeral_taken h).suffix
  rw [numeralValue, Json.Numeral.value]
  split_ifs with whole
  · rw [Json.wholeNumber]
    split_ifs with short
    · exact suffix
    · exact ⟨Nat.lt_of_not_le short, t, List.suffix_refl t, n, rest, h, whole.1, whole.2, rfl⟩
  · exact suffix

theorem scalar_reads (t : Text) : Reads Prod.snd t (scalar t) := by
  rw [scalar]
  split
  next text rest h => exact string_suffix h
  split
  next rest _ word => exact Text.after_suffix word
  next rest _ word => exact Text.after_suffix word
  split
  next moment rest h =>
    exact Reads.map (.orMalformed (fun _ => rest) fun _ _ => moment_suffix h) fun _ => rfl
  split
  next n rest h => exact based_suffix h
  split
  next n rest h => exact (numeralValue_reads h).map fun _ => rfl
  · exact Reads.map (.orMalformed Prod.snd fun _ h => special_suffix h) fun _ => rfl

/-- The readers of values, of items and of entries with so much fuel. -/
structure ReadValues (fuel : Nat) : Prop where
  value : ∀ t, Reads Prod.snd t (value fuel t)
  items : ∀ before t, Reads Prod.snd t (items fuel before t)
  entries : ∀ draft t, Reads Prod.snd t (entries fuel draft t)

theorem value_reads_succ {fuel : Nat} (h : ReadValues fuel) (t : Text) :
    Reads Prod.snd t (value (fuel + 1) t) := by
  rw [value]
  split
  next inner bracket =>
    refine ((skipSpace_reads inner).of_suffix (drop_suffix bracket)).bind fun rest => ?_
    split
    next closed => exact drop_suffix closed
    · exact h.items [] rest
  next inner _ brace =>
    have rest_suffix := (skipBlanks_suffix inner).trans (drop_suffix brace)
    simp only
    split
    next closed => exact (drop_suffix closed).trans rest_suffix
    · exact (h.entries {} _).of_suffix rest_suffix
  · exact scalar_reads t

theorem items_reads_succ {fuel : Nat} (h : ReadValues fuel) (before : List Value) (t : Text) :
    Reads Prod.snd t (items (fuel + 1) before t) := by
  rw [items]
  refine (h.value t).bind ?_
  rintro ⟨item, rest⟩
  refine (skipSpace_reads rest).bind fun rest => ?_
  split
  next closed => exact drop_suffix closed
  · refine Reads.bind (.orMalformed id fun _ h => drop_suffix h) fun rest => ?_
    refine (skipSpace_reads rest).bind fun rest => ?_
    split
    next closed => exact drop_suffix closed
    · exact h.items _ _

theorem entries_reads_succ {fuel : Nat} (h : ReadValues fuel) (draft : Draft) (t : Text) :
    Reads Prod.snd t (entries (fuel + 1) draft t) := by
  rw [entries]
  refine (keyEquals_reads t).bind ?_
  rintro ⟨k, rest⟩
  refine (h.value rest).bind ?_
  rintro ⟨v, rest⟩
  -- The table takes nothing from the text.
  refine Reads.bind (.orMalformed (fun _ => rest) fun _ _ => List.suffix_refl _)
    fun draft => ?_
  simp only
  split
  next closed => exact (drop_suffix closed).trans (skipBlanks_suffix rest)
  · refine Reads.bind (.orMalformed id fun _ h => ?_) fun rest => ?_
    · exact (drop_suffix h).trans (skipBlanks_suffix rest)
    · exact (h.entries _ _).of_suffix (skipBlanks_suffix rest)

theorem readValues (fuel : Nat) : ReadValues fuel := by
  induction fuel with
  | zero => exact ⟨fun _ => trivial, fun _ _ => trivial, fun _ _ => trivial⟩
  | succ fuel ih => exact ⟨value_reads_succ ih, items_reads_succ ih, entries_reads_succ ih⟩

/-! ## Documents -/

/-- A header: a key between brackets, of which those in front were read. -/
theorem header_reads (open? : Key → Option Draft) (close? : Text → Option Text)
    (hc : ∀ s rest, close? s = some rest → rest <:+ s) (t : Text) :
    Reads Prod.snd t (do
      let (k, rest) ← key (skipBlanks t)
      let draft ← orMalformed (open? k)
      return (draft, ← orMalformed (close? rest))) := by
  refine ((key_reads _).of_suffix (skipBlanks_suffix t)).bind ?_
  rintro ⟨k, rest⟩
  -- Opening the table takes nothing from the text.
  refine Reads.bind (.orMalformed (fun _ => rest) fun _ _ => List.suffix_refl _)
    fun draft => ?_
  refine Reads.bind (.orMalformed id fun _ h => hc _ _ h) fun rest => ?_
  exact List.suffix_refl _

theorem assignment_reads (draft : Draft) (t : Text) :
    Reads Prod.snd t (do
      let (k, rest) ← keyEquals t
      let (v, rest) ← value (2 * rest.length + 1) rest
      return (← orMalformed (draft.assign? k v), rest)) := by
  refine (keyEquals_reads t).bind ?_
  rintro ⟨k, rest⟩
  refine ((readValues _).value rest).bind ?_
  rintro ⟨v, rest⟩
  refine Reads.bind (.orMalformed (fun _ => rest) fun _ _ => List.suffix_refl _)
    fun draft => ?_
  exact List.suffix_refl _

theorem statement_reads (draft : Draft) (t : Text) : Reads Prod.snd t (statement draft t) := by
  cases t with
  | nil => exact List.suffix_refl _
  | cons c rest =>
    rw [statement]
    have rest_suffix : rest <:+ c :: rest := List.suffix_cons ..
    split_ifs
    · exact List.suffix_refl _
    · split
      next inner bracket =>
        refine (header_reads draft.openItem? (fun rest => (drop? ']' rest).bind (drop? ']'))
          (fun s rest h => ?_) inner).of_suffix ((drop_suffix bracket).trans rest_suffix)
        obtain ⟨after, first, second⟩ := Option.bind_eq_some_iff.1 h
        exact (drop_suffix second).trans (drop_suffix first)
      · exact (header_reads draft.openTable? (drop? ']') (fun _ _ => drop_suffix) rest).of_suffix
          rest_suffix
    · exact assignment_reads draft _

/-- Of a document nothing is left. -/
theorem lines_reads (fuel : Nat) (draft : Draft) (t : Text) :
    Reads (fun _ => []) t (lines fuel draft t) := by
  induction fuel generalizing draft t with
  | zero => trivial
  | succ fuel ih =>
    rw [lines]
    refine ((statement_reads draft _).of_suffix (skipBlanks_suffix t)).bind ?_
    rintro ⟨draft, rest⟩
    refine ((skipComment_reads _).of_suffix (skipBlanks_suffix rest)).bind fun rest => ?_
    split
    · exact List.nil_suffix
    next c rest =>
      split_ifs
      · exact (ih draft rest).of_suffix (List.suffix_cons ..)
      · trivial

/-- A document in which the first fault is a number that is too long to be read. -/
def StopsAtNumber (document : Text) : Prop :=
  ∃ digits, read document = .error (.integerTooLong digits)

/-- The number stands in the document. -/
theorem StopsAtNumber.holdsWhole {document : Text} (h : StopsAtNumber document) :
    ∃ digits, Json.maxDigits < digits ∧ HoldsWhole digits document := by
  obtain ⟨digits, h⟩ := h
  have reads : Reads (fun _ => []) document (read document) :=
    (lines_reads _ {} document).map fun _ => rfl
  rw [h] at reads
  exact ⟨digits, reads⟩

/-- A document with few digits, wherever they stand in it, has no such number. -/
theorem not_stopsAtNumber {document : Text}
    (few : document.countP CodePoint.isDigit ≤ Json.maxDigits) : ¬ StopsAtNumber document := by
  intro h
  obtain ⟨digits, long, holds⟩ := h.holdsWhole
  have := holds.le_countP
  omega

/-- What is read is a table. -/
theorem exists_table_of_read {document : Text} {v : Value} (h : read document = .ok v) :
    ∃ entries, v = .table entries := by
  obtain ⟨draft, -, rfl⟩ := map_eq_ok_iff.1 h
  exact ⟨draft.root, rfl⟩

end SampleTypes.Toml
