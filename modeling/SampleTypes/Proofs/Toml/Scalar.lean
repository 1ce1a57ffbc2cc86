import Mathlib.Tactic.SplitIfs
import SampleTypes.Toml.Scalar

/-!
# What readers of scalars leave

A reader takes what it reads from the front of a text: what it leaves is an ending of the text.
The digits of a number stand in the text in their order, with at most underscores between them.

## Main definitions

* `Toml.Taken` — digits that were read from the front of a text

## Main results

* `Toml.drop_eq_some_iff` — taking one code point
* `Toml.string_suffix`, `Toml.moment_suffix` — strings, dates and times
* `Toml.based_suffix`, `Toml.numeral_taken`, `Toml.special_suffix` — numbers
-/

namespace SampleTypes.Toml

variable {c : Char} {t rest : Text}

theorem drop_eq_some_iff : drop? c t = some rest ↔ t = ofChar c :: rest := by
  cases t with
  | nil => simp [drop?]
  | cons d t =>
    rw [drop?]
    split_ifs with h
    · simp [h]
    · simp [h]

theorem drop_suffix (h : drop? c t = some rest) : rest <:+ t := by
  rw [drop_eq_some_iff.1 h]
  exact List.suffix_cons ..

theorem orElse_suffix {o o' : Option Text} (ho : ∀ s, o = some s → s <:+ t)
    (ho' : ∀ s, o' = some s → s <:+ t) (h : (o <|> o') = some rest) : rest <:+ t := by
  cases o with
  | some s =>
    cases h
    exact ho _ rfl
  | none => exact ho' _ h

theorem drop_or_suffix {d : Char} (h : (drop? c t <|> drop? d t) = some rest) : rest <:+ t :=
  orElse_suffix (fun _ => drop_suffix) (fun _ => drop_suffix) h

/-! ## Strings -/

variable {multiline : Bool} {before s : Text}

theorem closing_suffix {quote : Char} (h : closing? quote before t = some (s, rest)) :
    rest <:+ t := by
  simp only [closing?, Option.bind_eq_bind, Option.bind_eq_some_iff] at h
  obtain ⟨second, h₂, third, h₃, h⟩ := h
  have three : third <:+ t := (drop_suffix h₃).trans (drop_suffix h₂)
  split at h
  · cases h
    exact three
  next fourth h₄ =>
    have four : fourth <:+ t := (drop_suffix h₄).trans three
    split at h
    · cases h
      exact four
    next fifth h₅ =>
      cases h
      exact (drop_suffix h₅).trans four

theorem basicFrom_suffix {state : StringState}
    (h : basicFrom? multiline state before t = some (s, rest)) : rest <:+ t := by
  induction t generalizing state before with
  | nil => cases state <;> cases h
  | cons c t ih =>
    have more {state : StringState} {before : Text}
        (h : basicFrom? multiline state before t = some (s, rest)) : rest <:+ c :: t :=
      (ih h).trans (List.suffix_cons ..)
    rw [basicFrom?.eq_def] at h
    cases state with
    | digits missing value =>
      simp only [Option.bind_eq_bind, Option.bind_eq_some_iff] at h
      obtain ⟨digit, -, h⟩ := h
      split_ifs at h
      · obtain ⟨d, -, h⟩ := Option.bind_eq_some_iff.1 h
        exact more h
      · exact more h
    | escape =>
      simp only at h
      split_ifs at h
      iterate 4 exact more h
      split at h
      · exact more h
      · cases h
    | lineEnd =>
      simp only at h
      split_ifs at h
      iterate 2 exact more h
    | plain | nextLine =>
      simp only at h
      split at h
      · exact more h
      split at h
      · split at h
        · split at h
          next closed hc =>
            cases h
            exact (closing_suffix hc).trans (List.suffix_cons ..)
          · exact more h
        · cases h
          exact List.suffix_cons ..
      split at h
      · exact more h
      split at h
      · cases h
      · exact more h

theorem literalFrom_suffix (h : literalFrom? multiline before t = some (s, rest)) :
    rest <:+ t := by
  induction t generalizing before with
  | nil => cases h
  | cons c t ih =>
    have more {before : Text} (h : literalFrom? multiline before t = some (s, rest)) :
        rest <:+ c :: t :=
      (ih h).trans (List.suffix_cons ..)
    rw [literalFrom?] at h
    split_ifs at h
    · split at h
      next closed hc =>
        cases h
        exact (closing_suffix hc).trans (List.suffix_cons ..)
      · exact more h
    · cases h
      exact List.suffix_cons ..
    · exact more h

theorem opening_suffix {quote : Char} (h : opening? quote t = some rest) : rest <:+ t := by
  simp only [opening?, Option.bind_eq_bind, Option.bind_eq_some_iff, Option.pure_def,
    Option.some.injEq] at h
  obtain ⟨first, h₁, second, h₂, third, h₃, rfl⟩ := h
  have three : third <:+ t := (drop_suffix h₃).trans ((drop_suffix h₂).trans (drop_suffix h₁))
  cases h₄ : drop? '\n' third with
  | none => exact three
  | some fourth => exact (drop_suffix h₄).trans three

theorem lineString_suffix (h : lineString? t = some (s, rest)) : rest <:+ t := by
  rw [lineString?] at h
  split at h
  next inner hq => exact (basicFrom_suffix h).trans (drop_suffix hq)
  · obtain ⟨inner, hq, h⟩ := Option.bind_eq_some_iff.1 h
    exact (literalFrom_suffix h).trans (drop_suffix hq)

theorem string_suffix (h : string? t = some (s, rest)) : rest <:+ t := by
  rw [string?] at h
  split at h
  next inner _ hq => exact (basicFrom_suffix h).trans (opening_suffix hq)
  next inner _ hq => exact (literalFrom_suffix h).trans (opening_suffix hq)
  · exact lineString_suffix h

/-! ## Numbers -/

variable {isDigit : CodePoint → Bool}

/-- Digits that were read from the front of a text, and what was left: the digits stand in the
text in their order. -/
structure Taken (isDigit : CodePoint → Bool) (t digits rest : Text) : Prop where
  suffix : rest <:+ t
  sublist : digits.Sublist t
  digits : ∀ c ∈ digits, isDigit c = true

namespace Taken

theorem nil (t : Text) : Taken isDigit t [] t :=
  ⟨List.suffix_refl t, List.nil_sublist t, by simp⟩

theorem cons {digits : Text} {d : CodePoint} (h : Taken isDigit t digits rest)
    (hd : isDigit d = true) : Taken isDigit (d :: t) (d :: digits) rest where
  suffix := h.suffix.trans (List.suffix_cons d t)
  sublist := h.sublist.cons_cons d
  digits := by simpa [hd] using h.digits

/-- Something else stands before the digits. -/
theorem after {digits u : Text} (h : Taken isDigit t digits rest) (ht : t <:+ u) :
    Taken isDigit u digits rest where
  suffix := h.suffix.trans ht
  sublist := h.sublist.trans ht.sublist
  digits := h.digits

end Taken

theorem moreDigits_taken (isDigit : CodePoint → Bool) (t : Text) :
    Taken isDigit t (moreDigits isDigit t).1 (moreDigits isDigit t).2 := by
  fun_induction moreDigits isDigit t with
  | case1 => exact .nil []
  | case2 c t hc digits rest hr ih => exact (hr ▸ ih).cons hc
  | case3 c hc => exact .nil [c]
  | case4 c hc d t hd digits rest hr ih => exact ((hr ▸ ih).cons hd.2).after (List.suffix_cons ..)
  | case5 c hc d t hd => exact .nil (c :: d :: t)

theorem takeDigits_taken (isDigit : CodePoint → Bool) (t : Text) :
    Taken isDigit t (takeDigits isDigit t).1 (takeDigits isDigit t).2 := by
  cases t with
  | nil => exact .nil []
  | cons c t =>
    rw [takeDigits]
    split_ifs
    · exact moreDigits_taken isDigit _
    · exact .nil _

theorem based_suffix {n : Nat} (h : based? t = some (n, rest)) : rest <:+ t := by
  unfold based? at h
  split at h
  next zero letter inner =>
    simp only [Option.bind_eq_bind] at h
    split_ifs at h
    · cases h
    · obtain ⟨base, -, h⟩ := Option.bind_eq_some_iff.1 h
      split_ifs at h
      · cases h
      · cases h
        have digits := takeDigits_taken (isDigitTo base) inner
        exact digits.suffix.trans ((List.suffix_cons ..).trans (List.suffix_cons ..))
  · cases h

theorem takeWhole_taken (t : Text) :
    Taken CodePoint.isDigit t (takeWhole t).1 (takeWhole t).2 := by
  rw [takeWhole]
  split
  next inner zero =>
    rw [drop_eq_some_iff.1 zero]
    exact (Taken.nil inner).cons rfl
  · exact takeDigits_taken CodePoint.isDigit t

theorem takeFraction_suffix (t : Text) : (takeFraction t).2 <:+ t := by
  rw [takeFraction]
  split
  next c digits inner taken =>
    obtain ⟨after, point, taken⟩ := Option.map_eq_some_iff.1 taken
    have suffix := (takeDigits_taken CodePoint.isDigit after).suffix
    rw [taken] at suffix
    exact suffix.trans (drop_suffix point)
  · exact List.suffix_refl _

theorem takeExponent_suffix (t : Text) : (takeExponent t).2 <:+ t := by
  rw [takeExponent]
  split
  · exact List.suffix_refl _
  next negative inner letter =>
    obtain ⟨after, letter, sign⟩ := Option.map_eq_some_iff.1 letter
    have suffix := Binary64.takeSign_suffix after
    rw [sign] at suffix
    split
    · exact List.suffix_refl _
    next digits left _ taken =>
      have taken' := (takeDigits_taken CodePoint.isDigit inner).suffix
      rw [taken] at taken'
      exact (taken'.trans suffix).trans (drop_or_suffix letter)

/-- A decimal number takes its digits before the point from the text, in their order. -/
theorem numeral_taken {n : Json.Numeral} (h : numeral? t = some (n, rest)) :
    Taken CodePoint.isDigit t n.whole rest := by
  simp only [numeral?] at h
  split_ifs at h
  cases h
  have whole := (takeWhole_taken (Binary64.takeSign t).2).after (Binary64.takeSign_suffix t)
  exact ⟨((takeExponent_suffix _).trans (takeFraction_suffix _)).trans whole.suffix,
    whole.sublist, whole.digits⟩

theorem special_suffix {x : Binary64} (h : special? t = some (x, rest)) : rest <:+ t := by
  simp only [special?] at h
  split at h
  next inner _ word =>
    cases h
    exact (Text.after_suffix word).trans (Binary64.takeSign_suffix t)
  next inner _ word =>
    cases h
    exact (Text.after_suffix word).trans (Binary64.takeSign_suffix t)
  · cases h

/-! ## Dates and times -/

theorem fixed_suffix {width n : Nat} (h : fixed? width t = some (n, rest)) : rest <:+ t := by
  simp only [fixed?] at h
  split_ifs at h
  cases h
  exact List.drop_suffix ..

theorem two_suffix {low high n : Nat} (h : two? low high t = some (n, rest)) : rest <:+ t := by
  simp only [two?, Option.bind_eq_bind, Option.bind_eq_some_iff] at h
  obtain ⟨⟨m, inner⟩, fixed, h⟩ := h
  split_ifs at h
  cases h
  exact fixed_suffix fixed

theorem afterTime_suffix (h : afterTime? t = some rest) : rest <:+ t := by
  simp only [afterTime?, Option.bind_eq_bind, Option.bind_eq_some_iff] at h
  obtain ⟨⟨_, hour⟩, h₁, minute, h₂, ⟨_, afterMinute⟩, h₃, second, h₄, ⟨_, afterSecond⟩, h₅, h⟩ := h
  have seconds : afterSecond <:+ t :=
    ((((two_suffix h₅).trans (drop_suffix h₄)).trans (two_suffix h₃)).trans
      (drop_suffix h₂)).trans (two_suffix h₁)
  split at h
  next c digits inner fraction =>
    obtain ⟨after, point, taken⟩ := Option.map_eq_some_iff.1 fraction
    obtain rfl : after = inner := congrArg Prod.snd taken
    cases h
    exact ((List.dropWhile_suffix _).trans (drop_suffix point)).trans seconds
  · cases h
    exact seconds

theorem afterOffset_suffix (h : afterOffset? t = some rest) : rest <:+ t := by
  rw [afterOffset?] at h
  split at h
  next inner zone =>
    cases h
    exact drop_or_suffix zone
  · simp only [Option.bind_eq_bind, Option.bind_eq_some_iff] at h
    obtain ⟨hour, h₁, ⟨_, afterHour⟩, h₂, minute, h₃, ⟨_, afterMinute⟩, h₄, h⟩ := h
    cases h
    exact (((two_suffix h₄).trans (drop_suffix h₃)).trans (two_suffix h₂)).trans
      (drop_or_suffix h₁)

/-- What is left is left if nothing more can be taken. -/
theorem getD_suffix {o : Option Text} (h : ∀ s, o = some s → s <:+ t) : o.getD t <:+ t := by
  cases o with
  | none => exact List.suffix_refl _
  | some s => exact h s rfl

theorem afterDayTime_suffix (h : afterDayTime? t = some rest) : rest <:+ t := by
  simp only [afterDayTime?, Option.bind_eq_bind, Option.bind_eq_some_iff] at h
  obtain ⟨inner, letter, after, time, h⟩ := h
  cases h
  have letter_suffix : inner <:+ t :=
    orElse_suffix (fun _ => drop_suffix) (fun _ => drop_or_suffix) letter
  exact ((getD_suffix fun _ => afterOffset_suffix).trans (afterTime_suffix time)).trans
    letter_suffix

theorem day_suffix {d : Nat × Nat × Nat} (h : day? t = some (d, rest)) : rest <:+ t := by
  simp only [day?, Option.bind_eq_bind, Option.bind_eq_some_iff] at h
  obtain ⟨⟨_, year⟩, h₁, month, h₂, ⟨_, afterMonth⟩, h₃, day, h₄, ⟨_, afterDay⟩, h₅, h⟩ := h
  cases h
  exact ((((two_suffix h₅).trans (drop_suffix h₄)).trans (two_suffix h₃)).trans
    (drop_suffix h₂)).trans (fixed_suffix h₁)

theorem moment_suffix {v : Option Value} (h : moment? t = some (v, rest)) : rest <:+ t := by
  simp only [moment?] at h
  split at h
  next year month day inner hd =>
    have left : (afterDayTime? inner).getD inner <:+ t :=
      (getD_suffix fun _ => afterDayTime_suffix).trans (day_suffix hd)
    split_ifs at h
    · cases h
      exact left
    · cases h
      exact left
  · obtain ⟨after, time, h⟩ := Option.map_eq_some_iff.1 h
    cases h
    exact afterTime_suffix time

end SampleTypes.Toml
