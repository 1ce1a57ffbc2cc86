import SampleTypes.Command.Run
import SampleTypes.Proofs.Json.Reader
import SampleTypes.Proofs.Text.Ascii
import SampleTypes.Proofs.Text.Decoded

/-!
# Which documents are rejected

A command asks for a document by a path or takes it from standard input. Whatever is there, it is
meant to have a value or to be rejected with a word about what is wrong: a path that leads to no
file, or a text that is no JSON. Two kinds of documents are not covered by this. Bytes that no text
has are found out before the text is looked at, and a whole number with more digits than are read
stops the reader although the text is well-formed so far; either failure is none that a command
expects.

## Main results

* `Command.loadJson_eq_ok_iff` — which bytes have a value
* `Command.document_ok_or_rejected_iff` — which documents have a value or are rejected
* `Command.document_of_digits` — a document of too many digits is neither
-/

namespace SampleTypes.Command

variable {bytes : List UInt8} {t : Text} {j : Json}

/-! ## Bytes -/

theorem loadJson_of_encode (h : Utf8.encode t = .ok bytes) :
    loadJson bytes = (Json.read t.unifyNewlines).mapError fun
      | .malformed problem place => .invalidJson problem place
      | .integerTooLong digits => .integerTooLong digits := by
  rw [loadJson, (Text.ofDocument_eq_ok_iff bytes _).2 ⟨t, h, rfl⟩]
  rfl

theorem loadJson_of_no_text (h : ∀ t, Utf8.encode t ≠ .ok bytes) :
    ∃ fault, loadJson bytes = .error (.undecodable fault) := by
  cases decoded : Text.ofDocument bytes with
  | error fault =>
    rw [loadJson, decoded]
    exact ⟨fault, rfl⟩
  | ok document =>
    obtain ⟨t, encoded, -⟩ := (Text.ofDocument_eq_ok_iff bytes document).1 decoded
    exact absurd encoded (h t)

/-- The bytes of a text that is a JSON document. -/
theorem loadJson_eq_ok_iff :
    loadJson bytes = .ok j ↔
      ∃ t, Utf8.encode t = .ok bytes ∧ Json.read t.unifyNewlines = .ok j := by
  constructor
  · intro loaded
    obtain ⟨document, decoded, loaded⟩ := bind_eq_ok_iff.1 loaded
    obtain ⟨t, encoded, rfl⟩ :=
      (Text.ofDocument_eq_ok_iff bytes document).1 (mapError_eq_ok_iff.1 decoded)
    exact ⟨t, encoded, mapError_eq_ok_iff.1 loaded⟩
  · rintro ⟨t, encoded, read⟩
    rw [loadJson_of_encode encoded, read, mapError_ok]

/-- Bytes have a value or are rejected if they have a text that does not stop at a number. -/
theorem loadJson_ok_or_rejected_iff :
    ((∃ j, loadJson bytes = .ok j) ∨
        ∃ failure, loadJson bytes = .error failure ∧ failure.toClass = .rejected) ↔
      ∃ t, Utf8.encode t = .ok bytes ∧ ¬ Json.StopsAtNumber t.unifyNewlines := by
  by_cases encoded : ∃ t, Utf8.encode t = .ok bytes
  · obtain ⟨t, encoded⟩ := encoded
    have same (u : Text) : Utf8.encode u = .ok bytes ↔ u = t :=
      ⟨fun h => Utf8.encode_inj h encoded, fun h => h ▸ encoded⟩
    rw [loadJson_of_encode encoded]
    simp only [same, exists_eq_left, Json.StopsAtNumber]
    cases Json.read t.unifyNewlines with
    | ok j => simp
    | error fault => cases fault <;> simp [Failure.toClass]
  · obtain ⟨fault, failed⟩ := loadJson_of_no_text fun t h => encoded ⟨t, h⟩
    have none (t : Text) : Utf8.encode t ≠ .ok bytes := fun h => encoded ⟨t, h⟩
    simp [failed, Failure.toClass, none]

/-! ## Documents -/

/-- The documents with a value are the JSON texts. A document that is there has a value or is
rejected just if its bytes are those of a text that does not stop at a number, and a text stops
there only if more digits than are read stand in it in a row. What is not there is rejected. -/
theorem document_ok_or_rejected_iff (sources : Sources) (input : Option FilePath) :
    (∀ j, sources.document input = .ok j ↔
      ∃ bytes t, sources.bytes input = .ok bytes ∧ Utf8.encode t = .ok bytes ∧
        Json.read t.unifyNewlines = .ok j) ∧
    (((∃ j, sources.document input = .ok j) ∨
        ∃ failure, sources.document input = .error failure ∧ failure.toClass = .rejected) ↔
      ∀ bytes, sources.bytes input = .ok bytes →
        ∃ t, Utf8.encode t = .ok bytes ∧ ¬ Json.StopsAtNumber t.unifyNewlines) ∧
    ∀ t, Json.StopsAtNumber t → ∃ digits, Json.maxDigits < digits ∧ Json.HoldsRun digits t := by
  refine ⟨fun j => ?_, ?_, fun t => Json.StopsAtNumber.holdsRun⟩
  · rw [Sources.document, bind_eq_ok_iff]
    simp only [loadJson_eq_ok_iff, exists_and_left]
  · rw [Sources.document]
    cases found : sources.bytes input with
    | ok bytes =>
      simp only [Except.ok.injEq, forall_eq', ← loadJson_ok_or_rejected_iff]
      rfl
    | error failure =>
      -- The only failure to find a document is to be told that it is unreadable.
      have rejected : failure.toClass = .rejected := by
        cases input with
        | none => cases found
        | some path =>
          rw [Sources.bytes] at found
          cases read : sources.read path with
          | ok bytes =>
            rw [read] at found
            cases found
          | error e =>
            rw [read] at found
            cases found
            rfl
      simp only [reduceCtorEq, false_implies, implies_true, iff_true]
      exact .inr ⟨failure, rfl, rejected⟩

/-- A document of more digits than are read, without a zero in front. -/
theorem document_of_digits {sources : Sources} {input : Option FilePath} {digits : Text}
    (h : ∀ d ∈ digits, d.isDigit = true) (first : digits.head? ≠ some (ofChar '0'))
    (long : Json.maxDigits < digits.length) (encoded : Utf8.encode digits = .ok bytes)
    (found : sources.bytes input = .ok bytes) :
    ∃ n, sources.document input = .error (.integerTooLong n) := by
  have noReturn : ofChar '\r' ∉ digits := fun mem => CodePoint.ne_of_isDigit (h _ mem) rfl rfl
  obtain ⟨n, stops⟩ := Json.stopsAtNumber_of_digits h first long
  refine ⟨n, ?_⟩
  change sources.bytes input >>= loadJson = _
  rw [found]
  change loadJson bytes = _
  rw [loadJson_of_encode encoded, Text.unifyNewlines_eq_self noReturn, stops, mapError_error]

/-- No text begins with the byte of this file: it has no value, and is not rejected for it. -/
theorem document_of_invalid_byte :
    let sources : Sources := ⟨fun _ => .ok [0xFF], []⟩
    let input : FilePath := ⟨.here, [Text.ofString "in.json"]⟩
    ¬ ((∃ j, sources.document (some input) = .ok j) ∨
      ∃ failure, sources.document (some input) = .error failure ∧
        failure.toClass = .rejected) := by
  intro sources input
  have fails : sources.document (some input) = .error (.undecodable ⟨0, 1, 0xFF, .start⟩) := rfl
  rintro (⟨j, h⟩ | ⟨failure, h, rejected⟩)
  · rw [fails] at h
    cases h
  · rw [fails] at h
    cases h
    cases rejected

end SampleTypes.Command
