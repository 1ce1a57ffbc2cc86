import SampleTypes.Proofs.Settings.File
import SampleTypes.Proofs.Settings.Overrides

/-!
# What a file says about names

The settings that are promised for a file are those of a table, the empty one if the file has none.
So they can be told from what the document in the file says under the two keys: a name if there is a
text that is not all blank, and a flag if there is one of the values that switch it on.

## Main definitions

* `Settings.Says` — what the document in a file says under a key of the table with settings
* `Settings.HoldsName`, `Settings.HoldsFlag` — the files with a name, and with a flag that is on

## Main results

* `Settings.exists_table_of_promised` — promised settings are those of a table
* `Settings.typeName_eq_some_iff`, `Settings.deriveName_eq_true_iff` — promised settings, by what
  the file says
-/

namespace SampleTypes.Settings

/-- The document in a file has a table with settings, which says this under a key. -/
inductive Says : Except AccessError (List UInt8) → Text → Toml.Value → Prop
  | intro {bytes : List UInt8} {t : Text} {entries table : List (Text × Toml.Value)} {key : Text}
      {v : Toml.Value} (encoded : Utf8.encode t = .ok bytes)
      (read : Toml.read t.unifyNewlines = .ok (.table entries))
      (found : Entries.find? tableName entries = some (.table table))
      (said : Entries.find? key table = some v) : Says (.ok bytes) key v

/-- The values that switch a setting on: the truth value, a whole number that is not zero, and the
words for it in any case, with or without blanks around them. -/
inductive SwitchesOn : Toml.Value → Prop
  | bool : SwitchesOn (.bool true)
  | integer {n : Int} (h : n ≠ 0) : SwitchesOn (.integer n)
  | word {t : Text} (h : t.strip.lower ∈ trueWords) : SwitchesOn (.text t)

variable {file : Except AccessError (List UInt8)} {s : Settings}

/-- A file says that types have a name: a text that is not all blank. -/
def HoldsName (file : Except AccessError (List UInt8)) (t : Text) : Prop :=
  Says file (Text.ofString "type_name") (.text t) ∧ ∃ c ∈ t, c.isBlank = false

/-- A file says that types are named after the input. -/
def HoldsFlag (file : Except AccessError (List UInt8)) : Prop :=
  ∃ v, Says file (Text.ofString "derive_name") v ∧ SwitchesOn v

/-! ## Values -/

theorem name?_ofToml_iff {v : Toml.Value} {name : Text} :
    name? (Sample.ofToml v) = some name ↔
      ∃ t, v = .text t ∧ (∃ c ∈ t, c.isBlank = false) ∧ name = t.strip := by
  rw [name?_eq_some_iff]
  constructor
  · rintro ⟨n, t, text, -, rfl, nonempty⟩
    cases v <;> cases text
    exact ⟨t, rfl, Text.strip_ne_nil_iff.1 nonempty, rfl⟩
  · rintro ⟨t, rfl, notBlank, rfl⟩
    exact ⟨_, t, rfl, by decide, rfl, Text.strip_ne_nil_iff.2 notBlank⟩

theorem flag_ofToml_iff {v : Toml.Value} : flag (Sample.ofToml v) = true ↔ SwitchesOn v := by
  constructor
  · intro on
    cases v with
    | bool b =>
      cases b with
      | true => exact .bool
      | false => cases on
    | integer n => exact .integer (bne_iff_ne.1 on)
    | text t => exact .word (List.contains_iff_mem.1 on)
    | _ => cases on
  · rintro (_ | h | h)
    · rfl
    · exact bne_iff_ne.2 h
    · exact List.contains_iff_mem.2 h

/-! ## Tables -/

theorem lookup?_ofTomlEntries (key : Text) (table : List (Text × Toml.Value)) :
    Sample.lookup? key (Sample.ofTomlEntries table) =
      (Entries.find? key table).map Sample.ofToml := by
  induction table with
  | nil => rfl
  | cons e rest ih =>
    obtain ⟨name, v⟩ := e
    rw [Sample.ofTomlEntries, Entries.find?]
    by_cases same : name = key
    · simp [Sample.lookup?, Sample.ofText, Sample.content?, same]
    · rw [if_neg same, ← ih]
      simp [Sample.lookup?, Sample.ofText, Sample.content?, same]

/-- A file whose document has a table with settings has the settings of the table. -/
theorem ofFile_of_read {bytes : List UInt8} {t : Text} {entries : List (Text × Toml.Value)}
    {v : Toml.Value} (encoded : Utf8.encode t = .ok bytes)
    (read : Toml.read t.unifyNewlines = .ok (.table entries))
    (found : Entries.find? tableName entries = some v) :
    ofFile (.ok bytes) = .ok (ofTable (Sample.ofToml v)) := by
  have held : Text.ofDocument bytes = .ok t.unifyNewlines :=
    (Text.ofDocument_eq_ok_iff _ _).2 ⟨t, encoded, rfl⟩
  rw [ofFile, held]
  change ofDocument t.unifyNewlines = _
  rw [ofDocument, read]
  simp only [found, Option.map_some, Option.getD_some]

/-- Promised settings are those of a table, which is empty if the file has none. -/
theorem exists_table_of_promised (h : Promised file s) :
    ∃ table, s = ofTable (Sample.ofToml (.table table)) ∧
      ∀ key v, Says file key v ↔ Entries.find? key table = some v := by
  -- Bytes encode one text and a text is one document, so what the file is said to say is said by
  -- the very document that the promise is about.
  cases h with
  | unreadable e => exact ⟨[], rfl, fun key v => ⟨nofun, nofun⟩⟩
  | undecodable h =>
    refine ⟨[], rfl, fun key v => ⟨?_, nofun⟩⟩
    rintro ⟨encoded, -, -, -⟩
    exact absurd encoded (h _)
  | malformed h hr =>
    refine ⟨[], rfl, fun key v => ⟨?_, nofun⟩⟩
    rintro ⟨encoded, read, -, -⟩
    rw [Utf8.encode_inj h encoded, read] at hr
    cases hr
  | absent h hr hf =>
    refine ⟨[], rfl, fun key v => ⟨?_, nofun⟩⟩
    rintro ⟨encoded, read, found, -⟩
    cases Utf8.encode_inj h encoded
    cases hr.symm.trans read
    rw [hf] at found
    cases found
  | @table bytes t entries v h hr hf =>
    have said {key : Text} {w : Toml.Value} : Says (.ok bytes) key w ↔
        ∃ table, v = .table table ∧ Entries.find? key table = some w := by
      constructor
      · rintro ⟨encoded, read, found, said⟩
        cases Utf8.encode_inj h encoded
        cases hr.symm.trans read
        exact ⟨_, Option.some.inj (hf.symm.trans found), said⟩
      · rintro ⟨table, rfl, said⟩
        exact .intro h hr hf said
    cases v with
    | table table => exact ⟨table, rfl, fun key w => by rw [said]; simp⟩
    | _ => exact ⟨[], rfl, fun key w => by rw [said]; simp [Entries.find?]⟩

/-! ## Promised settings -/

/-- There is a name in promised settings just if the file holds one, from which the blanks around it
are taken. -/
theorem typeName_eq_some_iff (h : Promised file s) {name : Text} :
    s.typeName = some name ↔ ∃ t, HoldsName file t ∧ name = t.strip := by
  obtain ⟨table, rfl, said⟩ := exists_table_of_promised h
  have read : (ofTable (Sample.ofToml (.table table))).typeName =
      (Sample.lookup? (Text.ofString "type_name") (Sample.ofTomlEntries table)).bind name? := rfl
  rw [read, lookup?_ofTomlEntries]
  simp only [HoldsName, said, Option.bind_eq_some_iff, Option.map_eq_some_iff]
  constructor
  · rintro ⟨_, ⟨v, found, rfl⟩, named⟩
    obtain ⟨t, rfl, notBlank, rfl⟩ := name?_ofToml_iff.1 named
    exact ⟨t, ⟨found, notBlank⟩, rfl⟩
  · rintro ⟨t, ⟨found, notBlank⟩, rfl⟩
    exact ⟨_, ⟨_, found, rfl⟩, name?_ofToml_iff.2 ⟨t, rfl, notBlank, rfl⟩⟩

theorem typeName_eq_none_iff (h : Promised file s) :
    s.typeName = none ↔ ∀ t, ¬ HoldsName file t := by
  rw [Option.eq_none_iff_forall_ne_some]
  constructor
  · intro none t holds
    exact none _ ((typeName_eq_some_iff h).2 ⟨t, holds, rfl⟩)
  · intro none name named
    obtain ⟨t, holds, -⟩ := (typeName_eq_some_iff h).1 named
    exact none t holds

/-- Promised settings switch names after the input on just if the file does. -/
theorem deriveName_eq_true_iff (h : Promised file s) : s.deriveName = true ↔ HoldsFlag file := by
  obtain ⟨table, rfl, said⟩ := exists_table_of_promised h
  have read : (ofTable (Sample.ofToml (.table table))).deriveName =
      ((Sample.lookup? (Text.ofString "derive_name") (Sample.ofTomlEntries table)).map
        flag).getD false := rfl
  rw [read, lookup?_ofTomlEntries]
  simp only [HoldsFlag, said, ← flag_ofToml_iff]
  cases Entries.find? (Text.ofString "derive_name") table with
  | none => simp
  | some v => simp

end SampleTypes.Settings
