import Mathlib.Logic.ExistsUnique
import SampleTypes.Proofs.Text.Ascii
import SampleTypes.Proofs.Text.Decoded
import SampleTypes.Proofs.Toml.Digits
import SampleTypes.Settings.File

/-!
# Settings that are promised

A file is promised to have settings whatever is in it: those of its table, or the default ones if
it cannot be read or is malformed in any way. Two ways to be malformed are not covered: bytes that
no text has, and a document in which the first fault is a decimal number with more digits than are
read. Every other file has the settings that are promised for it, if its path names a file.

## Main definitions

* `Settings.Promised` — the settings that are promised for a file

## Main results

* `Settings.existsUnique_promised` — just one promise is made for a file
* `Settings.exists_atPath_iff` — the files for which it is kept
* `Settings.atPath_of_few_digits` — a text with few digits is such a file
-/

namespace SampleTypes.Settings

/-- The settings that are promised for a file, of which the bytes are given if it can be read. -/
inductive Promised : Except AccessError (List UInt8) → Settings → Prop where
  | unreadable (e : AccessError) : Promised (.error e) {}
  /-- No text has these bytes. -/
  | undecodable {bytes : List UInt8} (h : ∀ t, Utf8.encode t ≠ .ok bytes) :
      Promised (.ok bytes) {}
  | malformed {bytes : List UInt8} {t : Text} {fault : Toml.Fault}
      (h : Utf8.encode t = .ok bytes) (hr : Toml.read t.unifyNewlines = .error fault) :
      Promised (.ok bytes) {}
  /-- The document does not say anything under the name. -/
  | absent {bytes : List UInt8} {t : Text} {entries : List (Text × Toml.Value)}
      (h : Utf8.encode t = .ok bytes) (hr : Toml.read t.unifyNewlines = .ok (.table entries))
      (hf : Entries.find? tableName entries = none) : Promised (.ok bytes) {}
  | table {bytes : List UInt8} {t : Text} {entries : List (Text × Toml.Value)} {v : Toml.Value}
      (h : Utf8.encode t = .ok bytes) (hr : Toml.read t.unifyNewlines = .ok (.table entries))
      (hf : Entries.find? tableName entries = some v) :
      Promised (.ok bytes) (ofTable (Sample.ofToml v))

variable {file : Except AccessError (List UInt8)} {s : Settings} {bytes : List UInt8} {t : Text}

/-- Something is promised for every file. -/
theorem exists_promised (file : Except AccessError (List UInt8)) : ∃ s, Promised file s := by
  cases file with
  | error e => exact ⟨_, .unreadable e⟩
  | ok bytes =>
    by_cases encoded : ∃ t, Utf8.encode t = .ok bytes
    · obtain ⟨t, h⟩ := encoded
      cases hr : Toml.read t.unifyNewlines with
      | error fault => exact ⟨_, .malformed h hr⟩
      | ok v =>
        obtain ⟨entries, rfl⟩ := Toml.exists_table_of_read hr
        cases hf : Entries.find? tableName entries with
        | none => exact ⟨_, .absent h hr hf⟩
        | some v => exact ⟨_, .table h hr hf⟩
    · exact ⟨_, .undecodable fun t h => encoded ⟨t, h⟩⟩

/-- No two things are: bytes are those of one text, and the text has one reading. -/
theorem existsUnique_promised (file : Except AccessError (List UInt8)) :
    ∃! s, Promised file s := by
  obtain ⟨s, h⟩ := exists_promised file
  refine ⟨s, h, fun s' h' => ?_⟩
  cases h <;> cases h' <;> grind [Utf8.encode_inj]

/-! ## Documents and files -/

/-- What a document has is what is promised for its bytes. -/
theorem promised_of_ofDocument (h : Utf8.encode t = .ok bytes)
    (hs : ofDocument t.unifyNewlines = .ok s) : Promised (.ok bytes) s := by
  rw [ofDocument] at hs
  split at hs
  next entries hr =>
    cases hf : Entries.find? tableName entries with
    | none =>
      rw [hf] at hs
      cases hs
      exact .absent h hr hf
    | some v =>
      rw [hf] at hs
      cases hs
      exact .table h hr hf
  next v other hr =>
    obtain ⟨entries, rfl⟩ := Toml.exists_table_of_read hr
    exact absurd rfl (other entries)
  next hr =>
    cases hs
    exact .malformed h hr
  · cases hs

theorem exists_ofDocument_iff (document : Text) :
    (∃ s, ofDocument document = .ok s) ↔ ¬ Toml.StopsAtNumber document := by
  rw [ofDocument, Toml.StopsAtNumber]
  cases Toml.read document with
  | ok v => cases v <;> simp
  | error fault => cases fault <;> simp

theorem promised_of_ofFile (h : ofFile file = .ok s) : Promised file s := by
  cases file with
  | error e =>
    cases h
    exact .unreadable e
  | ok bytes =>
    rw [ofFile] at h
    split at h
    · cases h
    next document hd =>
      obtain ⟨t, encoded, rfl⟩ := (Text.ofDocument_eq_ok_iff bytes document).1 hd
      exact promised_of_ofDocument encoded h

theorem exists_ofFile_iff :
    (∃ s, ofFile file = .ok s) ↔ ∀ bytes, file = .ok bytes →
      ∃ t, Utf8.encode t = .ok bytes ∧ ¬ Toml.StopsAtNumber t.unifyNewlines := by
  cases file with
  | error e => simp [ofFile]
  | ok bytes =>
    simp only [ofFile, Except.ok.injEq, forall_eq']
    cases hd : Text.ofDocument bytes with
    | error fault =>
      have undecodable (t : Text) (h : Utf8.encode t = .ok bytes) : False := by
        rw [(Text.ofDocument_eq_ok_iff bytes _).2 ⟨t, h, rfl⟩] at hd
        cases hd
      simp only [reduceCtorEq, exists_false, false_iff, not_exists, not_and]
      exact fun t h => absurd h (undecodable t)
    | ok document =>
      obtain ⟨t, encoded, rfl⟩ := (Text.ofDocument_eq_ok_iff bytes document).1 hd
      simp only [exists_ofDocument_iff]
      refine ⟨fun h => ⟨t, encoded, h⟩, ?_⟩
      rintro ⟨u, same, h⟩
      exact Utf8.encode_inj encoded same ▸ h

/-- The file of an entry with too many digits has no settings, although default ones are promised
for it. -/
theorem not_exists_ofFile_of_digits {digits : Text} (hd : ∀ d ∈ digits, d.isDigit = true)
    (first : Toml.drop? '0' digits = none) (long : Json.maxDigits < digits.length)
    (h : Utf8.encode (Text.ofString "n = " ++ digits) = .ok bytes) :
    Promised (.ok bytes) {} ∧ ¬ ∃ s, ofFile (.ok bytes) = .ok s := by
  have noReturn : ofChar '\r' ∉ Text.ofString "n = " ++ digits := by
    intro mem
    rcases List.mem_append.1 mem with mem | mem
    · exact absurd mem (by decide)
    · exact CodePoint.ne_of_isDigit (hd _ mem) rfl rfl
  have stops := Toml.stopsAtNumber_of_digits hd first long
  rw [← Text.unifyNewlines_eq_self noReturn] at stops
  refine ⟨.malformed h stops.choose_spec, fun hs => ?_⟩
  obtain ⟨t, ht, reads⟩ := exists_ofFile_iff.1 hs bytes rfl
  exact reads (Utf8.encode_inj h ht ▸ stops)

/-! ## The file at a path -/

variable {read : FilePath → Except AccessError (List UInt8)} {path : FilePath}

theorem promised_of_atPath (h : atPath read path = .ok s) : Promised (read path) s := by
  rw [atPath] at h
  split at h
  · cases h
  · exact promised_of_ofFile h

theorem exists_atPath_iff :
    (∃ s, atPath read path = .ok s) ↔
      PathFault.of? path.text = none ∧ ∃ s, ofFile (read path) = .ok s := by
  rw [atPath]
  cases PathFault.of? path.text with
  | some fault => simp
  | none => simp

/-- The promise is kept for a text with few digits, wherever they stand in it. -/
theorem atPath_of_few_digits (named : PathFault.of? path.text = none) (h : read path = .ok bytes)
    (ht : Utf8.encode t = .ok bytes) (few : t.countP CodePoint.isDigit ≤ Json.maxDigits) :
    ∃ s, atPath read path = .ok s ∧ Promised (read path) s := by
  have short : ¬ Toml.StopsAtNumber t.unifyNewlines := by
    refine Toml.not_stopsAtNumber ?_
    rwa [Text.unifyNewlines, Text.countP_unifyNewlinesFrom]
  have readable : ∃ s, ofFile (read path) = .ok s := by
    refine exists_ofFile_iff.2 fun bytes' same => ⟨t, ?_, short⟩
    rw [ht, Except.ok.inj (h.symm.trans same)]
  obtain ⟨s, hs⟩ := exists_atPath_iff.2 ⟨named, readable⟩
  exact ⟨s, hs, promised_of_atPath hs⟩

/-- The settings that are returned are those that are promised, and some are returned just if the
path names a file and its bytes, if they can be read, are those of a text that does not stop at a
number. -/
theorem atPath_keeps_promise_iff (read : FilePath → Except AccessError (List UInt8))
    (path : FilePath) :
    (∀ s, atPath read path = .ok s → Promised (read path) s) ∧
    ((∃ s, atPath read path = .ok s) ↔
      PathFault.of? path.text = none ∧ ∀ bytes, read path = .ok bytes →
        ∃ t, Utf8.encode t = .ok bytes ∧ ¬ Toml.StopsAtNumber t.unifyNewlines) := by
  refine ⟨fun s => promised_of_atPath, ?_⟩
  rw [exists_atPath_iff, exists_ofFile_iff]

/-- No code point begins with the byte of this file: default settings are promised for it, and
none are returned. -/
theorem atPath_of_invalid_byte :
    Promised (.ok [0xFF]) {} ∧ ∀ s, atPath (fun _ => .ok [0xFF]) ⟨.here, [fileName]⟩ ≠ .ok s := by
  have invalid : Utf8.decode [0xFF] = .error ⟨0, 1, 0xFF, .start⟩ := rfl
  refine ⟨.undecodable fun t h => ?_, fun s h => ?_⟩
  · rw [Utf8.decode_encode h] at invalid
    cases invalid
  · have fails : atPath (fun _ => .ok [0xFF]) ⟨.here, [fileName]⟩ =
        .error (.undecodable ⟨0, 1, 0xFF, .start⟩) := rfl
    rw [fails] at h
    cases h

end SampleTypes.Settings
