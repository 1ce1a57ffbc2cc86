import SampleTypes.Proofs.Command.RoundTrip
import SampleTypes.Proofs.Files.Basic

/-!
# What a failing command leaves behind

A command has its whole answer before it touches a file, so whatever fails until then changes none.
Delivering the answer can fail in three ways. The answer cannot be printed, or its file cannot be
opened: no file changes either. Or its file has been opened, and emptied, before it turns out that
the answer has no bytes. This last way is open to declarations alone, since all other answers are
ASCII; it takes a name with a surrogate in it, which JSON can write with an escape.

## Main definitions

* `Command.UnwritableAnswer` — the command lines that lose what their target held

## Main results

* `Command.writeFile_failure` — the two ways in which writing a file fails
* `Command.run_of_unwritableAnswer` — what is lost
* `Command.run_keeps_files_iff` — which failing commands keep every file
-/

namespace SampleTypes.Command

/-! ## Texts without bytes -/

theorem exists_encode_error_iff (t : Text) :
    (∃ fault, Utf8.encode t = .error fault) ↔ ∃ c ∈ t, c.isSurrogate = true := by
  constructor
  · rintro ⟨fault, failed⟩
    by_contra plain
    have encoded := (Utf8.encode_eq_ok_iff t _).2 ⟨by simpa using plain, rfl⟩
    rw [encoded] at failed
    cases failed
  · rintro ⟨c, hc, surrogate⟩
    cases encoded : Utf8.encode t with
    | error fault => exact ⟨fault, rfl⟩
    | ok bytes =>
      have plain := ((Utf8.encode_eq_ok_iff t bytes).1 encoded).1 c hc
      rw [surrogate] at plain
      cases plain

theorem exists_surrogate_writtenText (t : Text) :
    (∃ c ∈ writtenText t, c.isSurrogate = true) ↔ ∃ c ∈ t, c.isSurrogate = true := by
  rw [writtenText]
  split
  · exact Iff.rfl
  · have lineEnd : ¬ (ofChar '\n').isSurrogate = true := by decide
    simp [lineEnd]

/-! ## Delivery -/

/-- Writing a file fails without a change to any file, or because the text has no bytes; the file
is then empty. -/
theorem writeFile_failure {files : Files} {path : FilePath} {t : Text}
    (fails : (writeFile files path t).failure ≠ none) :
    (writeFile files path t).files.file? = files.file? ∨
      ∃ made emptied fault, files.makeDirectories path.parent = (made, none) ∧
        made.write path [] = .ok emptied ∧ Utf8.encode (writtenText t) = .error fault := by
  have kept := Files.file?_makeDirectories files path.parent
  rw [writeFile, writing, perform_makeDirectories] at fails ⊢
  cases directories : files.makeDirectories path.parent with
  | mk made error =>
    rw [directories] at kept fails
    cases error with
    | some error => exact .inl kept
    | none =>
      simp only [perform_write] at fails ⊢
      cases opened : made.write path [] with
      | error error => exact .inl kept
      | ok emptied =>
        cases encoded : Utf8.encode (writtenText t) with
        | error fault => exact .inr ⟨made, emptied, fault, rfl, opened, rfl⟩
        | ok bytes =>
          -- A file that was emptied is written again, so this is no failure.
          obtain ⟨after, written⟩ := Files.write_write opened bytes
          simp [opened, encoded, written] at fails

/-- A text without bytes empties the file that it is to be written to, and changes no other. -/
theorem writeFile_of_encode_error {files made : Files} {path : FilePath} {t : Text}
    {location : Location} {fault : Utf8.Unencodable}
    (directories : files.makeDirectories path.parent = (made, none))
    (located : made.locate path = .ok location)
    (free : made.node? location ≠ some .directory)
    (encoded : Utf8.encode (writtenText t) = .error fault) :
    (writeFile files path t).failure = some (.unencodable fault) ∧
      (writeFile files path t).files.file? location = some [] ∧
      ∀ other ≠ location, (writeFile files path t).files.file? other = files.file? other := by
  have kept := Files.file?_makeDirectories files path.parent
  have opened := (Files.write_eq_ok_iff made path [] _).2 ⟨location, located, free, rfl⟩
  rw [directories] at kept
  simp only [writeFile, writing, perform_makeDirectories, perform_write, perform_fail, directories,
    opened, encoded, true_and]
  refine ⟨Files.file?_put_self free [], fun other away => ?_⟩
  rw [Files.file?_put_of_ne away]
  exact congrFun kept other

/-! ## Answers -/

/-- A declaration is answered as it is, or within a JSON value. -/
theorem exists_of_answerText_render {options : Options} {sources : Sources} {t : Text}
    (answer : Request.answerText ⟨.render, options⟩ sources = .ok t) :
    ∃ name declaration, t =
      if options.json then (Envelope.ofDeclaration name declaration).indented else declaration := by
  obtain ⟨name, -, answer⟩ := bind_eq_ok_iff.1 answer
  obtain ⟨document, -, answer⟩ := bind_eq_ok_iff.1 answer
  -- Whatever the declaration is made of, it is the same that is done with it.
  have declared : ∃ declaration, Except.ok (if options.json then
      (Envelope.ofDeclaration name declaration).indented else declaration) =
        (Except.ok t : Except Failure Text) := by
    simp only at answer
    split at answer
    · obtain ⟨declaration, -, answer⟩ := bind_eq_ok_iff.1 answer
      exact ⟨declaration, answer⟩
    · obtain ⟨declaration, -, answer⟩ := bind_eq_ok_iff.1 answer
      exact ⟨declaration, answer⟩
  obtain ⟨declaration, answer⟩ := declared
  exact ⟨name, declaration, (Except.ok.inj answer).symm⟩

/-- The only answer with a surrogate in it is a declaration as it is. -/
theorem render_of_surrogate {request : Request} {sources : Sources} {t : Text}
    (answer : request.answerText sources = .ok t) (h : ∃ c ∈ t, c.isSurrogate = true) :
    request.verb = .render ∧ request.options.json = false := by
  have notAscii : ¬ Text.Ascii t := by
    intro ascii
    obtain ⟨c, hc, surrogate⟩ := h
    rw [ascii.isSurrogate_eq c hc] at surrogate
    cases surrogate
  obtain ⟨verb, options⟩ := request
  cases verb with
  | infer =>
    obtain ⟨document, -, answer⟩ := bind_eq_ok_iff.1 answer
    obtain ⟨d, digest, -, -, rfl⟩ := inferAnswer_eq_ok answer
    exact absurd (Json.ascii_indented _) notAscii
  | render =>
    refine ⟨rfl, ?_⟩
    obtain ⟨name, declaration, rfl⟩ := exists_of_answerText_render answer
    cases json : options.json with
    | false => rfl
    | true =>
      rw [json] at notAscii
      exact absurd (Json.ascii_indented _) notAscii

/-! ## Runs -/

section

variable (files : Files) (arguments : List Text) (standardInput : List UInt8)

/-- A run fails before anything is delivered, or it delivers its answer. -/
theorem run_cases :
    (∃ failure, run files arguments standardInput = { files, failure := some failure }) ∨
      ∃ line answer, CommandLine.ofArguments arguments = .ok line ∧
        line.answer { read := files.read, standardInput } = .ok answer ∧
        run files arguments standardInput = answer.deliver files := by
  cases read : CommandLine.ofArguments arguments with
  | error error => exact .inl ⟨.usage error, run_of_usage read⟩
  | ok line =>
    cases answered : line.answer { read := files.read, standardInput } with
    | error failure => exact .inl ⟨failure, run_eq_failure read answered⟩
    | ok answer => exact .inr ⟨line, answer, rfl, answered, run_eq_deliver read answered⟩

/-- A command line asks for a declaration in a file. The place of the file can be written to, but
the declaration has a surrogate in it. -/
inductive UnwritableAnswer (location : Location) : Prop
  | intro (options : Options) (path : FilePath) (declaration : Text) (made : Files)
      (line : CommandLine.ofArguments arguments = .ok (.request ⟨.render, options⟩))
      (plain : options.json = false)
      (answer : Request.answer ⟨.render, options⟩ { read := files.read, standardInput } =
        .ok ⟨declaration, some path⟩)
      (surrogate : ∃ c ∈ declaration, c.isSurrogate = true)
      (directories : files.makeDirectories path.parent = (made, none))
      (located : made.locate path = .ok location)
      (free : made.node? location ≠ some .directory)

end

variable {files : Files} {arguments : List Text} {standardInput : List UInt8} {location : Location}

/-- The file that was to hold a declaration without bytes is empty afterwards. -/
theorem run_of_unwritableAnswer (h : UnwritableAnswer files arguments standardInput location) :
    (run files arguments standardInput).failure ≠ none ∧
      (run files arguments standardInput).files.file? location = some [] ∧
      ∀ other ≠ location,
        (run files arguments standardInput).files.file? other = files.file? other := by
  obtain ⟨options, path, declaration, made, line, plain, answer, surrogate, directories, located,
    free⟩ := h
  have delivered : run files arguments standardInput = writeFile files path declaration :=
    run_eq_deliver line answer
  obtain ⟨fault, encoded⟩ := (exists_encode_error_iff _).2
    ((exists_surrogate_writtenText declaration).2 surrogate)
  rw [delivered]
  obtain ⟨fails, empties, others⟩ := writeFile_of_encode_error directories located free encoded
  exact ⟨by rw [fails]; exact Option.some_ne_none _, empties, others⟩

/-- A run that fails keeps every file, or its answer could not be written. -/
theorem run_of_failure (fails : (run files arguments standardInput).failure ≠ none) :
    (run files arguments standardInput).files.file? = files.file? ∨
      ∃ location, UnwritableAnswer files arguments standardInput location := by
  rcases run_cases files arguments standardInput with
    ⟨failure, before⟩ | ⟨line, answer, read, answered, delivered⟩
  · exact .inl (by rw [before])
  · rw [delivered] at fails ⊢
    obtain ⟨t, target⟩ := answer
    cases target with
    | none =>
      left
      change (print files t).files.file? = files.file?
      rw [print_eq]
      split <;> rfl
    | some path =>
      rcases writeFile_failure fails with
        kept | ⟨made, emptied, fault, directories, opened, encoded⟩
      · exact .inl kept
      · right
        obtain ⟨location, located, free, -⟩ := (Files.write_eq_ok_iff made path [] emptied).1 opened
        have surrogate :=
          (exists_surrogate_writtenText t).1 ((exists_encode_error_iff _).1 ⟨fault, encoded⟩)
        cases line with
        | help verb => cases answered
        | request request =>
          obtain ⟨text, answerText, same⟩ := bind_eq_ok_iff.1 answered
          obtain rfl : text = t := congrArg Answer.text (Except.ok.inj same)
          obtain ⟨verb, options⟩ := request
          obtain ⟨rfl, plain⟩ : verb = .render ∧ options.json = false :=
            render_of_surrogate answerText surrogate
          exact ⟨location, options, path, text, made, read, plain, answered, surrogate, directories,
            located, free⟩

/-- A run that fails keeps every file, unless it has a declaration that cannot be written for a file
that is not empty. Such a declaration leaves its file empty, and every other file as it was. -/
theorem run_keeps_files_iff (files : Files) (arguments : List Text) (standardInput : List UInt8) :
    (((run files arguments standardInput).failure ≠ none → ∀ location,
        (run files arguments standardInput).files.file? location = files.file? location) ↔
      ∀ location, UnwritableAnswer files arguments standardInput location →
        files.file? location = some []) ∧
    ∀ location, UnwritableAnswer files arguments standardInput location →
      (run files arguments standardInput).failure ≠ none ∧
        (run files arguments standardInput).files.file? location = some [] ∧
        ∀ other ≠ location,
          (run files arguments standardInput).files.file? other = files.file? other := by
  refine ⟨⟨fun keeps location unwritable => ?_, fun empty fails location => ?_⟩,
    fun location => run_of_unwritableAnswer⟩
  · obtain ⟨fails, empties, -⟩ := run_of_unwritableAnswer unwritable
    rw [← keeps fails location, empties]
  · rcases run_of_failure fails with kept | ⟨target, unwritable⟩
    · rw [kept]
    · obtain ⟨-, empties, others⟩ := run_of_unwritableAnswer unwritable
      by_cases here : location = target
      · rw [here, empties, empty target unwritable]
      · exact others location here

/-- A declaration of a field whose name is a lone surrogate empties the file that was to hold it. -/
theorem run_empties_output :
    let directory : Location := [Text.ofString "work"]
    let input := Text.ofString "in.json"
    let output := Text.ofString "out.ts"
    let document := (Text.ofString "\x7b\"\\ud800\": 1\x7d").flatMap Utf8.encodeOne
    let before := (Text.ofString "type Kept = string;\n").flatMap Utf8.encodeOne
    let files : Files := ⟨[(directory, .directory), (directory ++ [input], .file document),
      (directory ++ [output], .file before)], directory⟩
    let arguments := [Text.ofString "render", Text.ofString "--input", input,
      Text.ofString "--output", output]
    (run files arguments []).failure ≠ none ∧
      files.file? (directory ++ [output]) = some before ∧
      (run files arguments []).files.file? (directory ++ [output]) = some [] := by
  decide +kernel

end SampleTypes.Command
