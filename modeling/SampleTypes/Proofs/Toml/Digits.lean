import SampleTypes.Proofs.Toml.Reader

/-!
# Texts of digits

A text that holds decimal digits and nothing else, of which the first is no zero, is read as the
number that they write, and as nothing else: it begins no string and no word, no date and no time,
and announces no base. If it is too long, the document stops there.

## Main results

* `Toml.numeral_digits` — the number that digits write
* `Toml.scalar_digits` — a value of digits is that number
* `Toml.stopsAtNumber_of_digits` — a document that assigns too many digits to a name
-/

namespace SampleTypes.Toml

section Digits

variable {c : Char} {digits : Text}

variable (h : ∀ d ∈ digits, d.isDigit = true)

include h

theorem drop_digits (hc : (ofChar c).isDigit = false) : drop? c digits = none := by
  cases digits with
  | nil => rfl
  | cons d rest => rw [drop?, if_neg (CodePoint.ne_of_isDigit (h d (List.mem_cons_self ..)) hc)]

theorem after_digits {word : Text} (hc : (ofChar c).isDigit = false) (hne : digits ≠ []) :
    Text.after? (ofChar c :: word) digits = none := by
  cases digits with
  | nil => exact absurd rfl hne
  | cons d rest => exact if_neg (CodePoint.ne_of_isDigit (h d (List.mem_cons_self ..)) hc).symm

theorem takeSign_digits : Binary64.takeSign digits = (false, digits) := by
  cases digits with
  | nil => rfl
  | cons d rest =>
    have hd := h d (List.mem_cons_self ..)
    rw [Binary64.takeSign, if_neg (CodePoint.ne_of_isDigit hd rfl),
      if_neg (CodePoint.ne_of_isDigit hd rfl)]

theorem moreDigits_digits : moreDigits CodePoint.isDigit digits = (digits, []) := by
  induction digits with
  | nil => rfl
  | cons d digits ih =>
    have rest := ih fun c hc => h c (List.mem_cons_of_mem _ hc)
    rw [moreDigits.eq_def]
    simp only [h d (List.mem_cons_self ..), if_true, rest]

theorem takeDigits_digits : takeDigits CodePoint.isDigit digits = (digits, []) := by
  cases digits with
  | nil => rfl
  | cons d digits =>
    rw [takeDigits, if_pos (h d (List.mem_cons_self ..)), moreDigits_digits h]

theorem numeral_digits (nonempty : digits ≠ []) (first : drop? '0' digits = none) :
    numeral? digits = some (⟨false, digits, [], none⟩, []) := by
  have whole : takeWhole digits = (digits, []) := by rw [takeWhole, first, takeDigits_digits h]
  have noFraction : takeFraction [] = ([], []) := rfl
  have noExponent : takeExponent [] = (none, []) := rfl
  simp only [numeral?, takeSign_digits h, whole, if_neg nonempty, noFraction, noExponent]

theorem moment_digits : moment? digits = none := by
  have drop {c : Char} (hc : (ofChar c).isDigit = false) (k : Nat) :
      drop? c (digits.drop k) = none :=
    drop_digits (fun d hd => h d (List.mem_of_mem_drop hd)) hc
  have noDay : day? digits = none := by
    simp only [day?, fixed?]
    split_ifs
    · simp [drop (c := '-') rfl]
    · rfl
  have noTime : afterTime? digits = none := by
    simp only [afterTime?, two?, fixed?]
    split_ifs
    · simp only [Option.bind_eq_bind, Option.bind_some]
      split_ifs
      · simp [drop (c := ':') rfl]
      · rfl
    · rfl
  rw [moment?, noDay, noTime]
  rfl

theorem scalar_digits (nonempty : digits ≠ []) (first : drop? '0' digits = none) :
    scalar digits = (numeralValue ⟨false, digits, [], none⟩).map fun v => (v, []) := by
  have noString : string? digits = none := by
    simp only [string?, opening?, lineString?, drop_digits h (c := '\x22') rfl,
      drop_digits h (c := '\x27') rfl]
    rfl
  have noTrue : Text.after? (Text.ofString "true") digits = none := after_digits h rfl nonempty
  have noFalse : Text.after? (Text.ofString "false") digits = none := after_digits h rfl nonempty
  have noBase : based? digits = none := by
    obtain _ | ⟨d, _ | ⟨_, _⟩⟩ := digits
    · rfl
    · rfl
    · have differs : d ≠ ofChar '0' := by
        rintro rfl
        cases first
      simp [based?, differs]
  simp only [scalar, noString, noTrue, noFalse, moment_digits h, noBase,
    numeral_digits h nonempty first]

end Digits

/-- An entry at the front of a text, under a name of one letter. -/
theorem keyEquals_name (t : Text) :
    keyEquals (Text.ofString "n = " ++ t) = .ok (⟨[], Text.ofString "n"⟩, skipBlanks t) := rfl

theorem stopsAtNumber_of_digits {digits : Text} (h : ∀ d ∈ digits, d.isDigit = true)
    (first : drop? '0' digits = none) (long : Json.maxDigits < digits.length) :
    StopsAtNumber (Text.ofString "n = " ++ digits) := by
  have nonempty : digits ≠ [] := List.ne_nil_of_length_pos (by omega)
  have tooLong : numeralValue ⟨false, digits, [], none⟩ =
      .error (.integerTooLong digits.length) := by
    simp [numeralValue, Json.Numeral.value, Json.wholeNumber, Nat.not_le.2 long, Except.map]
  have noBlank : skipBlanks digits = digits := by
    cases digits with
    | nil => rfl
    | cons d rest =>
      have hd := h d (List.mem_cons_self ..)
      have space := CodePoint.ne_of_isDigit (c := ' ') hd rfl
      have tab := CodePoint.ne_of_isDigit (c := '\t') hd rfl
      simp [skipBlanks, isBlank, space, tab]
  have value : value (2 * digits.length + 1) digits = .error (.integerTooLong digits.length) := by
    rw [Toml.value, drop_digits h (c := '[') rfl, drop_digits h (c := '\x7b') rfl]
    simp only [scalar_digits h nonempty first, tooLong]
    rfl
  have entry : statement {} (Text.ofString "n = " ++ digits) =
      .error (.integerTooLong digits.length) := by
    change (keyEquals (Text.ofString "n = " ++ digits) >>= fun found =>
      Toml.value (2 * found.2.length + 1) found.2 >>= _) = _
    rw [keyEquals_name, noBlank]
    change Toml.value (2 * digits.length + 1) digits >>= _ = _
    rw [value]
    rfl
  refine ⟨digits.length, ?_⟩
  change Except.map _ (statement {} (Text.ofString "n = " ++ digits) >>= _) = _
  rw [entry]
  rfl

end SampleTypes.Toml
