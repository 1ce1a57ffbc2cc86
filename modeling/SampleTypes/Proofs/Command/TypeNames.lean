import SampleTypes.Command.Run
import SampleTypes.Proofs.Settings.Contents
import SampleTypes.Proofs.Stages
import SampleTypes.Proofs.TypeName.Identifiers

/-!
# The name of a type

A name that is given on the command line is taken as it is. Otherwise the settings are asked: for a
name, and whether types are named after the input, which the command line may have decided already.
Where neither gives a name, there is a default. A name from the settings is trimmed and the other
two are identifiers, so a name that was not given is never empty and has no blanks around it.

## Main definitions

* `Command.DerivesName` — types are to be named after the input

## Main results

* `Command.nameBySettings_eq_suggest_iff`, `Command.nameBySettings_eq_default` — the name of a type
  where the settings have none
* `Command.typeName_is_resolved` — which name a type gets
-/

namespace SampleTypes

namespace Command

/-! ## Names by settings -/

section

variable {s : Settings} {input : Option FilePath}

theorem nameBySettings_of_name {name : Text} (h : s.typeName = some name)
    (input : Option FilePath) : nameBySettings s input = name := by
  simp only [nameBySettings, h]

/-- Where the settings have no name, a type is named after the input, or by default. -/
theorem nameBySettings_of_path (h : s.typeName = none) (path : FilePath) :
    nameBySettings s (some path) =
      if s.deriveName then TypeName.suggest path.stem else Declaration.defaultName := by
  simp only [nameBySettings, h]

theorem nameBySettings_eq_default (h : s.typeName = none)
    (off : input = none ∨ ¬ s.deriveName = true) :
    nameBySettings s input = Declaration.defaultName := by
  cases input with
  | none => simp only [nameBySettings, h]
  | some path =>
    have plain := off.resolve_left (Option.some_ne_none path)
    rw [nameBySettings_of_path h, if_neg plain]

/-- The name is the suggested one if types are named after the input, or by coincidence. -/
theorem nameBySettings_eq_suggest_iff (h : s.typeName = none) (path : FilePath) :
    nameBySettings s (some path) = TypeName.suggest path.stem ↔
      s.deriveName = true ∨ TypeName.suggest path.stem = Declaration.defaultName := by
  rw [nameBySettings_of_path h]
  split_ifs with on
  · exact iff_of_true rfl (.inl on)
  · rw [or_iff_right on]
    exact eq_comm

theorem isIdentifier_nameBySettings (h : s.typeName = none) (input : Option FilePath) :
    TypeName.IsIdentifier (nameBySettings s input) := by
  have default := TypeName.isCapitalized_defaultName.isIdentifier
  by_cases off : input = none ∨ ¬ s.deriveName = true
  · rw [nameBySettings_eq_default h off]
    exact default
  · obtain ⟨given, on⟩ := not_or.1 off
    obtain ⟨path, rfl⟩ := Option.ne_none_iff_exists'.1 given
    rw [nameBySettings_of_path h, if_pos (not_not.1 on)]
    exact TypeName.isIdentifier_suggest default path.stem

end

/-! ## The file with settings -/

/-- Settings are those of the file, if its path names one. -/
theorem settings_eq_ok_iff {sources : Sources} {options : Options} {s : Settings} :
    sources.settings options = .ok s ↔
      PathFault.of? (Settings.path { names := [] } options.config).text = none ∧
        Settings.ofFile (sources.read (Settings.path { names := [] } options.config)) = .ok s := by
  rw [Sources.settings, mapError_eq_ok_iff, Settings.atPath]
  cases PathFault.of? (Settings.path { names := [] } options.config).text with
  | some fault => simp
  | none => simp

theorem promised_of_settings {sources : Sources} {options : Options} {s : Settings}
    (h : sources.settings options = .ok s) :
    Settings.Promised (sources.read (Settings.path { names := [] } options.config)) s :=
  Settings.promised_of_ofFile (settings_eq_ok_iff.1 h).2

/-- Without a name on the command line, the settings name the type. -/
theorem typeName_of_settings {sources : Sources} {options : Options} {s : Settings}
    (absent : options.name = none) (found : sources.settings options = .ok s) :
    sources.typeName options =
      .ok (nameBySettings (s.withDeriveName options.deriveName) options.input) := by
  rw [Sources.typeName, absent]
  exact bind_eq_ok_iff.2 ⟨s, found, rfl⟩

/-- Types are to be named after the input: the command line says so, or it says nothing about it and
the file with settings does. -/
def DerivesName (options : Options) (file : Except AccessError (List UInt8)) : Prop :=
  options.deriveName = some true ∨ options.deriveName = none ∧ Settings.HoldsFlag file

theorem derivesName_iff (options : Options) {file : Except AccessError (List UInt8)}
    {s : Settings} (h : Settings.Promised file s) :
    (s.withDeriveName options.deriveName).deriveName = true ↔ DerivesName options file := by
  rw [Settings.deriveName_withDeriveName, DerivesName, ← Settings.deriveName_eq_true_iff h]
  cases options.deriveName with
  | none => simp
  | some choice => simp

/-! ## The name of a type -/

/-- A name that is given is the name of the type, whatever there is to be read. Otherwise, if the
file with settings can be used, the type has a name that is not empty and has no blanks around it:
the one in the file if there is one that is not all blank. If there is none the name is an
identifier: the name that is suggested for the stem of the input, exactly if there is an input and
types are to be named after it, and the default in all other cases. Only where the default is itself
what would be suggested, nothing tells the two cases apart. -/
theorem typeName_is_resolved (sources : Sources) (options : Options) :
    let file := sources.read (Settings.path { names := [] } options.config)
    (∀ name, options.name = some name → sources.typeName options = .ok name) ∧
    (options.name = none → ∀ s, sources.settings options = .ok s →
      ∃ name, sources.typeName options = .ok name ∧ name ≠ [] ∧ name.Trimmed ∧
        (∀ t, Settings.HoldsName file t → name = t.strip) ∧
        ((∀ t, ¬ Settings.HoldsName file t) →
          TypeName.IsIdentifier name ∧
          (∀ path, options.input = some path →
            (name = TypeName.suggest path.stem ↔ DerivesName options file ∨
              TypeName.suggest path.stem = Declaration.defaultName)) ∧
          (options.input = none ∨ ¬ DerivesName options file →
            name = Declaration.defaultName))) := by
  intro file
  refine ⟨fun name given => ?_, fun absent s found => ?_⟩
  · rw [Sources.typeName, given]
  refine ⟨_, typeName_of_settings absent found, ?_⟩
  have promised : Settings.Promised file s := promised_of_settings found
  have derives := derivesName_iff options promised
  -- The command line decides about the flag and never about the name in the settings.
  have kept := Settings.typeName_withDeriveName s options.deriveName
  cases named : s.typeName with
  | some name =>
    obtain ⟨t, holds, rfl⟩ := (Settings.typeName_eq_some_iff promised).1 named
    rw [nameBySettings_of_name (kept.trans named)]
    refine ⟨Text.strip_ne_nil_iff.2 holds.2, Text.trimmed_strip t, fun u holds' => ?_,
      fun none => absurd holds (none t)⟩
    have again := (Settings.typeName_eq_some_iff promised).2 ⟨u, holds', rfl⟩
    exact Option.some.inj (named.symm.trans again)
  | none =>
    have noName := (Settings.typeName_eq_none_iff promised).1 named
    have identifier := isIdentifier_nameBySettings (kept.trans named) options.input
    refine ⟨identifier.ne_nil, identifier.trimmed, fun t holds => absurd holds (noName t),
      fun _ => ⟨identifier, fun path input => ?_, fun off => ?_⟩⟩
    · rw [input, nameBySettings_eq_suggest_iff (kept.trans named), derives]
    · exact nameBySettings_eq_default (kept.trans named) (off.imp_right (mt derives.1))

/-- A name of blanks is none, a word in capitals among blanks is a flag, and the stem of the input
begins with a digit. -/
theorem typeName_is_resolved_from_stem :
    let document := Text.ofString "[render]\ntype_name = ' '\nderive_name = ' YES'\n"
    let sources : Sources := ⟨fun _ => .ok (document.flatMap Utf8.encodeOne), []⟩
    let options : Options := { paths := [(.input, Text.ofString "in/2nd-user.json")] }
    options.name = none ∧ sources.settings options = .ok { deriveName := true } ∧
      sources.typeName options = .ok (Text.ofString "GeneratedType2ndUser") ∧
      TypeName.IsIdentifier (Text.ofString "GeneratedType2ndUser") := by
  intro document sources options
  have plain : document.Encodable := by decide
  have encoded := (Utf8.encode_eq_ok_iff document _).2 ⟨plain, rfl⟩
  have read : Toml.read document.unifyNewlines = .ok (.table [(Settings.tableName, .table
      [(Text.ofString "type_name", .text (Text.ofString " ")),
        (Text.ofString "derive_name", .text (Text.ofString " YES"))])]) := by
    -- Only the reader is evaluated: the file and its settings follow from the lemmas about them.
    simp only [document]
    cbv
  have found : sources.settings options = .ok { deriveName := true } :=
    settings_eq_ok_iff.2 ⟨rfl, Settings.ofFile_of_read encoded read (if_pos rfl)⟩
  have promised := promised_of_settings found
  have noName := (Settings.typeName_eq_none_iff promised).1 rfl
  have derives := (derivesName_iff options promised).1 rfl
  obtain ⟨name, resolved, -, -, -, otherwise⟩ :=
    (typeName_is_resolved sources options).2 rfl _ found
  obtain ⟨identifier, fromStem, -⟩ := otherwise noName
  have stem : TypeName.suggest (FilePath.ofText (Text.ofString "in/2nd-user.json")).stem =
      Text.ofString "GeneratedType2ndUser" := by decide
  obtain rfl := ((fromStem _ rfl).2 (.inl derives)).trans stem
  exact ⟨rfl, found, resolved, identifier⟩

end Command

end SampleTypes
