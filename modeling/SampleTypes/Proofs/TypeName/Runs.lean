import Mathlib.Tactic.SplitIfs
import SampleTypes.TypeName

/-!
# Runs of letters and digits

A stem is taken apart at everything that is no ASCII letter and no digit, and the runs in between
are put together with a capital each. So a stem may be cut wherever something stands that belongs to
no run, nothing of a run is lost or moved, and a name that is made of capitalised runs is one run
with a capital, which stays as it is.

## Main definitions

* `TypeName.runs` — the runs of letters and digits in a text
* `TypeName.capitalize` — a run with a capital

## Main results

* `TypeName.camelize_eq_flatMap_runs` — a name is made of the capitalised runs of its stem
* `TypeName.runs_append` — the runs on both sides of a separator
* `TypeName.flatten_runs` — the runs hold all letters and digits, in their order
* `TypeName.camelize_joins_runs` — what making a name does to texts and to names
-/

namespace SampleTypes

/-! ## Capitals -/

namespace CodePoint

theorem isLower_iff (c : CodePoint) : c.isLower = true ↔ 0x61 ≤ c.val ∧ c.val ≤ 0x7A := by
  simp [isLower]

theorem isUpper_iff (c : CodePoint) : c.isUpper = true ↔ 0x41 ≤ c.val ∧ c.val ≤ 0x5A := by
  simp [isUpper]

theorem isDigit_iff (c : CodePoint) : c.isDigit = true ↔ 0x30 ≤ c.val ∧ c.val ≤ 0x39 := by
  simp [isDigit]

/-- What is no lower-case letter is its own capital. -/
theorem toUpper_of_not_isLower {c : CodePoint} (h : ¬ c.isLower = true) : c.toUpper = c := if_neg h

/-- The capital of a lower-case letter is the letter before it by the distance of the two cases. -/
theorem val_toUpper {c : CodePoint} (h : c.isLower = true) : c.toUpper.val = c.val - 0x20 := by
  obtain ⟨low, -⟩ := c.isLower_iff.1 h
  rw [toUpper, if_pos h]
  exact Fin.sub_val_of_le (show (0x20 : CodePoint).val ≤ c.val by omega)

theorem isUpper_toUpper {c : CodePoint} (h : c.isLower = true) : c.toUpper.isUpper = true := by
  obtain ⟨low, high⟩ := c.isLower_iff.1 h
  rw [isUpper_iff, val_toUpper h]
  omega

theorem not_isLower_of_isUpper {c : CodePoint} (h : c.isUpper = true) : ¬ c.isLower = true := by
  rw [isUpper_iff] at h
  rw [isLower_iff]
  omega

theorem isDigit_eq_false_of_isUpper {c : CodePoint} (h : c.isUpper = true) : c.isDigit = false := by
  rw [isUpper_iff] at h
  rw [← Bool.not_eq_true, isDigit_iff]
  omega

theorem isDigit_eq_false_of_isLower {c : CodePoint} (h : c.isLower = true) : c.isDigit = false := by
  rw [isLower_iff] at h
  rw [← Bool.not_eq_true, isDigit_iff]
  omega

/-- A capital is its own capital. -/
theorem toUpper_toUpper (c : CodePoint) : c.toUpper.toUpper = c.toUpper := by
  by_cases h : c.isLower = true
  · exact toUpper_of_not_isLower (not_isLower_of_isUpper (isUpper_toUpper h))
  · rw [toUpper_of_not_isLower h, toUpper_of_not_isLower h]

/-- In lower case a letter and its capital are the same. -/
theorem toLower_toUpper (c : CodePoint) : c.toUpper.toLower = c.toLower := by
  by_cases h : c.isLower = true
  · obtain ⟨low, high⟩ := c.isLower_iff.1 h
    have plain : c.toLower = c := if_neg fun upper => not_isLower_of_isUpper upper h
    rw [plain, toLower, if_pos (isUpper_toUpper h)]
    apply Fin.ext
    rw [Fin.val_add, val_toUpper h]
    change (c.val - 0x20 + 0x20) % 0x110000 = c.val
    omega
  · rw [toUpper_of_not_isLower h]

theorem isAlphanumeric_toUpper (c : CodePoint) :
    c.toUpper.isAlphanumeric = c.isAlphanumeric := by
  by_cases h : c.isLower = true
  · simp [isAlphanumeric, isLetter, isUpper_toUpper h, h]
  · rw [toUpper_of_not_isLower h]

theorem isDigit_toUpper (c : CodePoint) : c.toUpper.isDigit = c.isDigit := by
  by_cases h : c.isLower = true
  · rw [isDigit_eq_false_of_isUpper (isUpper_toUpper h), isDigit_eq_false_of_isLower h]
  · rw [toUpper_of_not_isLower h]

/-- Letters have capitals, and digits none. -/
theorem isUpper_toUpper_of_not_isDigit {c : CodePoint} (h : c.isAlphanumeric = true)
    (digit : c.isDigit = false) : c.toUpper.isUpper = true := by
  by_cases lower : c.isLower = true
  · exact isUpper_toUpper lower
  · rw [toUpper_of_not_isLower lower]
    simpa [isAlphanumeric, isLetter, digit, lower] using h

end CodePoint

namespace TypeName

/-! ## Runs -/

/-- What stands between runs. -/
def isSeparator (c : CodePoint) : Bool := !c.isAlphanumeric

/-- The runs of letters and digits: the parts of a text between separators that are not empty. -/
def runs (t : Text) : List Text := (t.splitOnP isSeparator).filter fun run => !run.isEmpty

/-- A run with a capital. -/
def capitalize : Text → Text
  | [] => []
  | c :: rest => c.toUpper :: rest

theorem flatMap_runs (t : Text) :
    (runs t).flatMap capitalize = (t.splitOnP isSeparator).flatMap capitalize := by
  rw [runs]
  induction t.splitOnP isSeparator with
  | nil => rfl
  | cons part parts ih =>
    cases part with
    | nil => simpa [capitalize] using ih
    | cons c part => simp [ih]

/-- What is read at the start of a run, and what within one, from the parts between separators. -/
theorem camelizeFrom_eq (t : Text) :
    camelizeFrom true t = (t.splitOnP isSeparator).flatMap capitalize ∧
      ∀ part parts, t.splitOnP isSeparator = part :: parts →
        camelizeFrom false t = part ++ parts.flatMap capitalize := by
  induction t with
  | nil =>
    refine ⟨rfl, fun part parts h => ?_⟩
    rw [List.splitOnP_nil, List.cons.injEq] at h
    obtain ⟨rfl, rfl⟩ := h
    rfl
  | cons c rest ih =>
    obtain ⟨part, parts, split⟩ :=
      List.exists_cons_of_ne_nil (List.splitOnP_ne_nil isSeparator rest)
    have within := ih.2 part parts split
    cases alphanumeric : c.isAlphanumeric with
    | true =>
      -- The code point goes before the first part of the rest.
      have whole : (c :: rest).splitOnP isSeparator = (c :: part) :: parts := by
        simp [List.splitOnP_cons_eq_if_modifyHead, isSeparator, alphanumeric, split]
      rw [whole]
      refine ⟨?_, fun part' parts' h => ?_⟩
      · simp [camelizeFrom, alphanumeric, within, capitalize]
      · rw [List.cons.injEq] at h
        obtain ⟨rfl, rfl⟩ := h
        simp [camelizeFrom, alphanumeric, within]
    | false =>
      have whole : (c :: rest).splitOnP isSeparator = [] :: rest.splitOnP isSeparator := by
        simp [List.splitOnP_cons_eq_if_modifyHead, isSeparator, alphanumeric]
      rw [whole]
      refine ⟨?_, fun part' parts' h => ?_⟩
      · simp [camelizeFrom, alphanumeric, ih.1, capitalize]
      · rw [List.cons.injEq] at h
        obtain ⟨rfl, rfl⟩ := h
        simp [camelizeFrom, alphanumeric, ih.1]

/-- A name is made of the capitalised runs of its stem. -/
theorem camelize_eq_flatMap_runs (t : Text) : camelize t = (runs t).flatMap capitalize := by
  rw [camelize, (camelizeFrom_eq t).1, flatMap_runs]

/-! ## Separators -/

theorem runs_append_cons {c : CodePoint} (hc : c.isAlphanumeric = false) (a b : Text) :
    runs (a ++ c :: b) = runs a ++ runs b := by
  have separator : isSeparator c = true := by simp [isSeparator, hc]
  rw [runs, List.splitOnP_append_cons a b separator, List.filter_append, runs, runs]

theorem runs_cons {c : CodePoint} (hc : c.isAlphanumeric = false) (t : Text) :
    runs (c :: t) = runs t := runs_append_cons hc [] t

/-- Between separators there are no runs. -/
theorem runs_append_of_separators {s : Text} (h : ∀ c ∈ s, c.isAlphanumeric = false) (t : Text) :
    runs (s ++ t) = runs t := by
  induction s with
  | nil => rfl
  | cons c s ih =>
    obtain ⟨first, others⟩ := List.forall_mem_cons.1 h
    rw [List.cons_append, runs_cons first, ih others]

/-- The runs of a text with separators in it are those before and those behind them. -/
theorem runs_append {s : Text} (hs : s ≠ []) (h : ∀ c ∈ s, c.isAlphanumeric = false) (a b : Text) :
    runs (a ++ s ++ b) = runs a ++ runs b := by
  obtain ⟨c, s, rfl⟩ := List.exists_cons_of_ne_nil hs
  obtain ⟨first, others⟩ := List.forall_mem_cons.1 h
  rw [List.append_assoc, List.cons_append, runs_append_cons first, runs_append_of_separators others]

/-! ## What runs hold -/

/-- The runs one after another are the letters and digits of a text. -/
theorem flatten_runs (t : Text) : (runs t).flatten = t.filter CodePoint.isAlphanumeric := by
  rw [runs, List.flatten_filter_not_isEmpty]
  induction t with
  | nil => rfl
  | cons c rest ih =>
    rw [List.splitOnP_cons_eq_if_modifyHead, isSeparator]
    cases alphanumeric : c.isAlphanumeric with
    | true =>
      obtain ⟨part, parts, split⟩ :=
        List.exists_cons_of_ne_nil (List.splitOnP_ne_nil isSeparator rest)
      -- The code point goes before the first part, and so before all parts together.
      rw [split] at ih ⊢
      simpa [alphanumeric] using ih
    | false => simpa [alphanumeric] using ih

/-- A text of letters and digits is one run. -/
theorem runs_of_alphanumeric {t : Text} (ht : t ≠ []) (h : ∀ c ∈ t, c.isAlphanumeric = true) :
    runs t = [t] := by
  have none : ∀ c ∈ t, isSeparator c = false := fun c hc => by simp [isSeparator, h c hc]
  rw [runs, List.splitOnP_eq_singleton none]
  simpa using ht

/-! ## Capitalised runs -/

theorem lower_capitalize (t : Text) : (capitalize t).lower = t.lower := by
  cases t with
  | nil => rfl
  | cons c rest => simp [capitalize, Text.lower, CodePoint.toLower_toUpper]

theorem forall_mem_capitalize {t : Text} (h : ∀ c ∈ t, c.isAlphanumeric = true) :
    ∀ c ∈ capitalize t, c.isAlphanumeric = true := by
  cases t with
  | nil => exact h
  | cons c rest => simpa [capitalize, CodePoint.isAlphanumeric_toUpper] using h

/-- The first code point of capitalised runs is the capital of the first one of the runs. -/
theorem head?_flatMap_capitalize (parts : List Text) :
    (parts.flatMap capitalize).head? = parts.flatten.head?.map CodePoint.toUpper := by
  induction parts with
  | nil => rfl
  | cons part parts ih =>
    cases part with
    | nil => exact ih
    | cons c part => rfl

theorem capitalize_eq_self {t : Text} (h : ∀ c ∈ t.head?, c.toUpper = c) : capitalize t = t := by
  cases t with
  | nil => rfl
  | cons c rest => rw [capitalize, h c rfl]

/-! ## Names -/

/-- A name begins with the capital of the first letter or digit of its stem. -/
theorem head?_camelize (t : Text) :
    (camelize t).head? = (t.find? CodePoint.isAlphanumeric).map CodePoint.toUpper := by
  rw [camelize_eq_flatMap_runs, head?_flatMap_capitalize, flatten_runs, List.head?_filter]

/-- Names are made of letters and digits. -/
theorem forall_mem_camelize (t : Text) : ∀ c ∈ camelize t, c.isAlphanumeric = true := by
  intro c hc
  rw [camelize_eq_flatMap_runs] at hc
  obtain ⟨run, hrun, hc⟩ := List.mem_flatMap.1 hc
  refine forall_mem_capitalize (fun d hd => ?_) c hc
  have kept : d ∈ (runs t).flatten := List.mem_flatten.2 ⟨run, hrun, hd⟩
  rw [flatten_runs] at kept
  exact (List.mem_filter.1 kept).2

/-- In lower case a name is its stem without separators. -/
theorem lower_camelize (t : Text) :
    (camelize t).lower = Text.lower (t.filter CodePoint.isAlphanumeric) := by
  have each : ∀ run : Text, (capitalize run).map CodePoint.toLower = run.map CodePoint.toLower :=
    lower_capitalize
  rw [camelize_eq_flatMap_runs, ← flatten_runs, Text.lower, Text.lower, List.map_flatMap]
  simp only [each, List.map_flatten, List.flatMap_def]

theorem camelize_of_alphanumeric {t : Text} (h : ∀ c ∈ t, c.isAlphanumeric = true) :
    camelize t = capitalize t := by
  by_cases ht : t = []
  · -- The empty text has no run.
    rw [ht]
    rfl
  · rw [camelize_eq_flatMap_runs, runs_of_alphanumeric ht h, List.flatMap_singleton]

/-- Names are names of themselves. -/
theorem camelize_camelize (t : Text) : camelize (camelize t) = camelize t := by
  rw [camelize_of_alphanumeric (forall_mem_camelize t)]
  apply capitalize_eq_self
  rw [head?_camelize]
  intro c hc
  obtain ⟨d, -, rfl⟩ := Option.map_eq_some_iff.1 hc
  exact d.toUpper_toUpper

/-! ## Suggested names -/

/-- A name that is suggested: the fallback, or the name made of the stem, with the fallback before a
digit. -/
theorem suggest_eq (stem fallback : Text) :
    suggest stem fallback = match stem.find? CodePoint.isAlphanumeric with
      | none => fallback
      | some c => if c.isDigit then fallback ++ camelize stem else camelize stem := by
  -- A name has no underscore that could be kept, and nothing else that would be left out.
  have kept : (camelize stem).filter isIdentifier = camelize stem := by
    refine List.filter_eq_self.2 fun c hc => ?_
    rw [isIdentifier, forall_mem_camelize stem c hc, Bool.true_or]
  have first := head?_camelize stem
  rw [suggest, normalize, kept]
  cases found : stem.find? CodePoint.isAlphanumeric with
  | none =>
    rw [found, Option.map_none, List.head?_eq_none_iff] at first
    rw [first]
  | some c =>
    rw [found, Option.map_some] at first
    obtain ⟨rest, whole⟩ := List.head?_eq_some_iff.1 first
    simp only [whole, c.isDigit_toUpper]

/-- Letters and digits of which the first is a capital. -/
def IsCapitalized (t : Text) : Prop :=
  ∃ c rest, t = c :: rest ∧ c.isUpper = true ∧ ∀ d ∈ rest, d.isAlphanumeric = true

theorem isCapitalized_defaultName : IsCapitalized Declaration.defaultName :=
  ⟨ofChar 'G', Text.ofString "eneratedType", by decide, by decide,
    List.all_eq_true.1 (by decide)⟩

/-- A stem whose first letter or digit is a letter has a name with a capital. -/
theorem isCapitalized_camelize {stem : Text} {c : CodePoint}
    (found : stem.find? CodePoint.isAlphanumeric = some c) (digit : c.isDigit = false) :
    IsCapitalized (camelize stem) := by
  have first := head?_camelize stem
  rw [found, Option.map_some] at first
  obtain ⟨rest, whole⟩ := List.head?_eq_some_iff.1 first
  have alphanumeric := forall_mem_camelize stem
  rw [whole, List.forall_mem_cons] at alphanumeric
  exact ⟨_, rest, whole, c.isUpper_toUpper_of_not_isDigit (List.find?_some found) digit,
    alphanumeric.2⟩

theorem isCapitalized_suggest {fallback : Text} (h : IsCapitalized fallback) (stem : Text) :
    IsCapitalized (suggest stem fallback) := by
  rw [suggest_eq]
  cases found : stem.find? CodePoint.isAlphanumeric with
  | none => exact h
  | some c =>
    change IsCapitalized (if c.isDigit then fallback ++ camelize stem else camelize stem)
    split_ifs with digit
    · obtain ⟨d, rest, rfl, upper, others⟩ := h
      refine ⟨d, rest ++ camelize stem, rfl, upper, ?_⟩
      exact List.forall_mem_append.2 ⟨others, forall_mem_camelize stem⟩
    · exact isCapitalized_camelize found (Bool.eq_false_iff.2 digit)

/-- Nothing better is suggested for such a name. -/
theorem suggest_of_isCapitalized {t : Text} (h : IsCapitalized t) (fallback : Text) :
    suggest t fallback = t := by
  obtain ⟨c, rest, rfl, upper, others⟩ := h
  have first : c.isAlphanumeric = true := by
    simp [CodePoint.isAlphanumeric, CodePoint.isLetter, upper]
  have capital : c.toUpper = c :=
    CodePoint.toUpper_of_not_isLower (CodePoint.not_isLower_of_isUpper upper)
  have same : camelize (c :: rest) = c :: rest := by
    rw [camelize_of_alphanumeric (List.forall_mem_cons.2 ⟨first, others⟩), capitalize, capital]
  simp [suggest_eq, List.find?_cons_of_pos first, CodePoint.isDigit_eq_false_of_isUpper upper, same]

/-! ## Texts and names -/

/-- What making a name does to texts and to names. The name of a text with separators in it is made
of the names of what stands on both sides; in lower case a name is what is left of its text without
separators; and a name is its own name, also if it was suggested with the default to fall back
to. -/
theorem camelize_joins_runs :
    (∀ a s b : Text, s ≠ [] → (∀ c ∈ s, c.isAlphanumeric = false) →
      camelize (a ++ s ++ b) = camelize a ++ camelize b) ∧
    ∀ t : Text, (camelize t).lower = Text.lower (t.filter CodePoint.isAlphanumeric) ∧
      camelize (camelize t) = camelize t ∧ suggest (suggest t) = suggest t := by
  refine ⟨fun a s b hs separators => ?_, fun t => ⟨lower_camelize t, camelize_camelize t, ?_⟩⟩
  · simp only [camelize_eq_flatMap_runs, runs_append hs separators, List.flatMap_append]
  · exact suggest_of_isCapitalized (isCapitalized_suggest isCapitalized_defaultName t) _

/-- An accented letter separates like a dash, and the default that comes before a digit does so only
once. -/
theorem camelize_joins_runs_around_dash :
    let dash := Text.ofString "-é "
    let second := Text.ofString "2nd__user"
    (dash ≠ [] ∧ ∀ c ∈ dash, c.isAlphanumeric = false) ∧
      camelize (Text.ofString "order" ++ dash ++ second) = Text.ofString "Order2ndUser" ∧
      suggest (suggest second) = Text.ofString "GeneratedType2ndUser" := by
  intro dash second
  have all : dash.all isSeparator = true := by decide
  have separators : ∀ c ∈ dash, c.isAlphanumeric = false := fun c hc => by
    simpa [isSeparator] using List.all_eq_true.1 all c hc
  have joined := camelize_joins_runs.1 (Text.ofString "order") dash second (by decide) separators
  have settled := (camelize_joins_runs.2 second).2.2
  refine ⟨⟨by decide, separators⟩, joined.trans ?_, settled.trans ?_⟩
  · decide
  · decide

end TypeName

end SampleTypes
