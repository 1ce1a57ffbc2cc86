import Mathlib.Tactic.SplitIfs
import SampleTypes.Json.Reader
import SampleTypes.Json.Writer

/-!
# Strings are read back

A text between quotation marks is read back, whatever it holds: quotation marks, backslashes and
control characters by their escapes, all else as it is. In ASCII a code point above `U+FFFF` is
two escapes that are joined when they are read, so a text with surrogates of its own need not come
back; every other text does.

## Main results

* `Utf8.hex_four`, `Json.hex4?_digits` — four hexadecimal digits, written and read
* `Json.stringFrom_stringOne` — one code point is read back
* `Json.stringAt_string` — a text is read back
-/

namespace SampleTypes

namespace Utf8

/-- A hexadecimal digit. -/
def digit (n : Nat) : CodePoint := ofChar (Nat.digitChar n)

theorem digitValue?_digit {n : Nat} (h : n < 16) : (digit n).digitValue? = some n := by
  have table : ∀ n : Fin 16, (digit n).digitValue? = some n.val := by decide
  exact table ⟨n, h⟩

theorem hex_one {n : Nat} (h : n < 16) : hex 1 n = [digit n] := by
  simp [hex, Nat.toDigits_of_lt_base h, digit]

theorem hex_succ {width : Nat} (hw : 0 < width) (n : Nat) :
    hex (width + 1) n = hex width (n / 16) ++ [digit (n % 16)] := by
  -- A single digit is preceded by one zero more; else the last digit comes off.
  by_cases h : n < 16
  · obtain ⟨w, rfl⟩ : ∃ w, width = w + 1 := ⟨width - 1, by omega⟩
    simp [hex, Nat.toDigits_of_lt_base h, Nat.div_eq_of_lt h, Nat.mod_eq_of_lt h, digit,
      List.replicate_succ']
  · simp only [hex]
    rw [Nat.toDigits_eq_if (by decide), if_neg h]
    simp [digit]

theorem hex_four {n : Nat} (h : n < 0x10000) :
    hex 4 n = [digit (n / 0x1000), digit (n / 0x100 % 16), digit (n / 0x10 % 16),
      digit (n % 16)] := by
  rw [hex_succ (by decide), hex_succ (by decide), hex_succ (by decide), hex_one (by omega)]
  simp [Nat.div_div_eq_div_mul]

end Utf8

namespace Json

theorem hex4?_digits {n : Nat} (h : n < 0x10000) :
    hex4? (Utf8.digit (n / 0x1000)) (Utf8.digit (n / 0x100 % 16)) (Utf8.digit (n / 0x10 % 16))
      (Utf8.digit (n % 16)) = some n := by
  simp only [hex4?, Utf8.digitValue?_digit (show n / 0x1000 < 16 by omega),
    Utf8.digitValue?_digit (show n / 0x100 % 16 < 16 by omega),
    Utf8.digitValue?_digit (show n / 0x10 % 16 < 16 by omega),
    Utf8.digitValue?_digit (show n % 16 < 16 by omega), Option.bind_eq_bind, Option.bind_some]
  congr 1
  omega

section Reading

variable (opening before : Text) (afterHigh : Bool)

theorem stringFrom_quote (rest : Text) :
    stringFrom opening afterHigh before (ofChar '\x22' :: rest) = .ok (before.reverse, rest) := by
  rw [stringFrom.eq_def]
  simp only [↓reduceIte]

theorem stringFrom_plain {c : CodePoint} (notQuote : c ≠ ofChar '\x22')
    (notBackslash : c ≠ ofChar '\\') (notControl : c.isControl = false) (rest : Text) :
    stringFrom opening afterHigh before (c :: rest) =
      stringFrom opening false (c :: before) rest := by
  rw [stringFrom.eq_def]
  simp only [if_neg notQuote, if_neg notBackslash, notControl, Bool.false_eq_true, ↓reduceIte]

theorem stringFrom_short {e : CodePoint} {d : Char} (notUnit : e ≠ ofChar 'u')
    (he : unescape? e = some d) (rest : Text) :
    stringFrom opening afterHigh before (ofChar '\\' :: e :: rest) =
      stringFrom opening false (ofChar d :: before) rest := by
  rw [stringFrom.eq_def]
  simp only [if_neg notUnit, he, ↓reduceIte]
  rw [if_neg (by decide)]

theorem stringFrom_unitEscape {n : Nat} (h : n < 0x10000) {rest : Text} (hrest : rest ≠ []) :
    stringFrom opening afterHigh before (unitEscape n ++ rest) =
      stringFrom opening (CodePoint.ofNat n).isHighSurrogate
        (addEscaped afterHigh (CodePoint.ofNat n) before) rest := by
  have nonempty : rest.isEmpty = false := by simpa using hrest
  rw [unitEscape, Utf8.hex_four h, show Text.ofString "\\u" = [ofChar '\\', ofChar 'u'] from rfl]
  simp only [List.cons_append, List.nil_append]
  rw [stringFrom.eq_def]
  simp only [↓reduceIte, nonempty, hex4?_digits h]
  rw [if_neg (by decide)]

end Reading

theorem addEscaped_false (c : CodePoint) (before : Text) :
    addEscaped false c before = c :: before := by
  simp [addEscaped]

theorem addEscaped_low {low : CodePoint} (h : low.isLowSurrogate = true) (high : CodePoint)
    (before : Text) : addEscaped true low (high :: before) = joinPair high low :: before := by
  simp [addEscaped, h]

/-- An escaped code point is read back. Above `U+FFFF` the two halves of its pair are joined; below,
it must be no half itself, because the next escape could join it. -/
theorem stringFrom_escape (opening before : Text) {c : CodePoint} (hc : c.isSurrogate = false)
    {rest : Text} (hrest : rest ≠ []) :
    stringFrom opening false before (escape c ++ rest) =
      stringFrom opening false (c :: before) rest := by
  have bound := c.isLt
  by_cases basic : c.val < 0x10000
  · have notHigh : c.isHighSurrogate = false := by
      simp only [CodePoint.isSurrogate, CodePoint.isHighSurrogate, Bool.and_eq_false_iff,
        decide_eq_false_iff_not] at hc ⊢
      omega
    rw [escape, if_pos basic, stringFrom_unitEscape _ _ _ basic hrest, CodePoint.ofNat_val,
      notHigh, addEscaped_false]
  · -- The first escape is kept as a high surrogate until the second one joins it.
    obtain ⟨n, hn⟩ : ∃ n, n = c.val - 0x10000 := ⟨_, rfl⟩
    have highVal := CodePoint.val_ofNat (show 0xD800 + n / 0x400 < 0x110000 by omega)
    have lowVal := CodePoint.val_ofNat (show 0xDC00 + n % 0x400 < 0x110000 by omega)
    have isHigh : (CodePoint.ofNat (0xD800 + n / 0x400)).isHighSurrogate = true := by
      simp only [CodePoint.isHighSurrogate, highVal, Bool.and_eq_true, decide_eq_true_eq]
      omega
    have isLow : (CodePoint.ofNat (0xDC00 + n % 0x400)).isLowSurrogate = true := by
      simp only [CodePoint.isLowSurrogate, lowVal, Bool.and_eq_true, decide_eq_true_eq]
      omega
    have lowNotHigh :
        (CodePoint.ofNat (0xDC00 + n % 0x400)).isHighSurrogate = false := by
      simp only [CodePoint.isHighSurrogate, lowVal, Bool.and_eq_false_iff,
        decide_eq_false_iff_not]
      omega
    have joined : joinPair (CodePoint.ofNat (0xD800 + n / 0x400))
        (CodePoint.ofNat (0xDC00 + n % 0x400)) = c := by
      apply Fin.ext
      rw [joinPair, highVal, lowVal, CodePoint.val_ofNat (by omega)]
      omega
    rw [escape, if_neg basic, ← hn, List.append_assoc,
      stringFrom_unitEscape _ _ _ (by omega) (by simp [unitEscape, Text.ofString]), isHigh,
      addEscaped_false, stringFrom_unitEscape _ _ _ (by omega) hrest, lowNotHigh,
      addEscaped_low isLow, joined]

theorem unescape?_of_shortEscape? {c : CodePoint} {letter : Char}
    (h : shortEscape? c = some letter) :
    ofChar letter ≠ ofChar 'u' ∧ ∃ d, unescape? (ofChar letter) = some d ∧ ofChar d = c := by
  unfold shortEscape? at h
  split_ifs at h <;> obtain rfl := Option.some.inj h <;> subst c
  · exact ⟨by decide, _, rfl, rfl⟩
  · exact ⟨by decide, _, rfl, rfl⟩
  · exact ⟨by decide, _, rfl, rfl⟩
  · exact ⟨by decide, _, rfl, rfl⟩
  · exact ⟨by decide, _, rfl, rfl⟩
  · exact ⟨by decide, _, rfl, rfl⟩
  · exact ⟨by decide, _, rfl, rfl⟩

theorem ne_of_shortEscape?_eq_none {c : CodePoint} (h : shortEscape? c = none) :
    c ≠ ofChar '\x22' ∧ c ≠ ofChar '\\' := by
  constructor <;> rintro rfl <;> revert h <;> decide

/-- A code point is read back as it stands in a string. -/
theorem stringFrom_stringOne (opening before : Text) {ascii : Bool} {c : CodePoint}
    (hc : ascii = true → c.isSurrogate = false) {rest : Text} (hrest : rest ≠ []) :
    stringFrom opening false before (stringOne ascii c ++ rest) =
      stringFrom opening false (c :: before) rest := by
  unfold stringOne
  split
  · next letter hletter =>
    obtain ⟨notUnit, d, hd, rfl⟩ := unescape?_of_shortEscape? hletter
    exact stringFrom_short opening before false notUnit hd rest
  · next none =>
    split_ifs with escaped
    · -- Without `ascii` only control characters are escaped, and none of them is a surrogate.
      refine stringFrom_escape opening before ?_ hrest
      cases ascii with
      | true => exact hc rfl
      | false =>
        simp only [CodePoint.isControl, CodePoint.isSurrogate, Bool.false_and, Bool.or_false,
          decide_eq_true_eq, Bool.and_eq_false_iff, decide_eq_false_iff_not] at escaped ⊢
        omega
    · obtain ⟨notQuote, notBackslash⟩ := ne_of_shortEscape?_eq_none none
      have notControl : c.isControl = false := by
        simp only [Bool.or_eq_true, not_or, Bool.not_eq_true] at escaped
        exact escaped.1
      exact stringFrom_plain opening before false notQuote notBackslash notControl rest

theorem stringFrom_flatMap (opening before : Text) {ascii : Bool} {t : Text}
    (ht : ascii = true → ∀ c ∈ t, c.isSurrogate = false) (rest : Text) :
    stringFrom opening false before (t.flatMap (stringOne ascii) ++ ofChar '\x22' :: rest) =
      .ok (before.reverse ++ t, rest) := by
  induction t generalizing before with
  | nil =>
    rw [List.flatMap_nil, List.nil_append, stringFrom_quote, List.append_nil]
  | cons c t ih =>
    rw [List.flatMap_cons, List.append_assoc,
      stringFrom_stringOne opening before (fun h => ht h c (List.mem_cons_self ..)) (by simp),
      ih (c :: before) fun h d hd => ht h d (List.mem_cons_of_mem _ hd)]
    simp

/-- A text is read back from between its quotation marks. -/
theorem stringAt_string {ascii : Bool} {t : Text}
    (ht : ascii = true → ∀ c ∈ t, c.isSurrogate = false) (rest : Text) :
    stringAt (string ascii t ++ rest) = .ok (t, rest) := by
  rw [stringAt, show (string ascii t ++ rest).drop 1 =
    t.flatMap (stringOne ascii) ++ ofChar '\x22' :: rest by simp [string]]
  exact stringFrom_flatMap _ [] ht rest

end Json

end SampleTypes
