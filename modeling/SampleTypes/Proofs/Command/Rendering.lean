import SampleTypes.Proofs.Command.Delivery
import SampleTypes.Proofs.Command.Printing
import SampleTypes.Proofs.Declaration.Names

/-!
# The ways in which a declaration is delivered

The declaration of the type of a document goes to standard output, to a file, or into an envelope. A
file holds it as it is, with one line end behind it, and so does the envelope, without the line end.
What is printed has a line end behind it too, but control sequences are taken out first; it is the
declaration as it is exactly if no control sequence stands in the name of the type or in a name of a
member that is part of the type.

## Main definitions

* `Files.CanWrite` — the places that a file can be written to
* `Command.Wrote` — a run that has written a file and nothing else

## Main results

* `Command.run_of_canWrite` — an answer without surrogates is written to its file
* `Command.run_delivers_declaration` — what each of the ways comes to
-/

namespace SampleTypes

/-- The directories above a path are there or can be made, and at the place that it leads to then
stands no directory. -/
def Files.CanWrite (files : Files) (path : FilePath) (location : Location) : Prop :=
  ∃ made, files.makeDirectories path.parent = (made, none) ∧ made.locate path = .ok location ∧
    made.node? location ≠ some .directory

theorem Descriptor.getLast?_declare (d : Descriptor) (name : Text) :
    (d.declare name).getLast? = some (ofChar ';') := by
  rw [declare_eq, Declaration.declare]
  exact List.getLast?_concat

namespace Command

/-- A run has written some bytes to the file in a place. It has printed nothing and changed no other
file. -/
structure Wrote (files : Files) (outcome : Outcome) (location : Location) (bytes : List UInt8) :
    Prop where
  succeeds : outcome.failure = none
  silent : outcome.printed = []
  holds : outcome.files.file? location = some bytes
  others : ∀ other ≠ location, outcome.files.file? other = files.file? other

variable {files : Files} {arguments : List Text} {standardInput : List UInt8}

/-! ## Files -/

theorem writeFile_wrote {path : FilePath} {location : Location} {t : Text} {bytes : List UInt8}
    (h : files.CanWrite path location) (encoded : Utf8.encode (writtenText t) = .ok bytes) :
    Wrote files (writeFile files path t) location bytes := by
  obtain ⟨made, directories, located, free⟩ := h
  have kept := Files.file?_makeDirectories files path.parent
  have opened := (Files.write_eq_ok_iff made path [] _).2 ⟨location, located, free, rfl⟩
  rw [directories] at kept
  -- The file is emptied first, and then found in the same place.
  have again := Files.locate_put free [] located
  have here : (made.put location (.file [])).node? location ≠ some .directory := by
    rw [Files.node?_put_self made (Files.ne_nil_of_node? free)]
    exact nofun
  have written := (Files.write_eq_ok_iff _ path bytes _).2 ⟨location, again, here, rfl⟩
  have outcome : writeFile files path t =
      { files := (made.put location (.file [])).put location (.file bytes) } := by
    simp only [writeFile, writing, perform_makeDirectories, perform_write, perform_nil, directories,
      opened, encoded, written]
  rw [outcome]
  refine ⟨rfl, rfl, Files.file?_put_self here bytes, fun other away => ?_⟩
  rw [Files.file?_put_of_ne away, Files.file?_put_of_ne away]
  exact congrFun kept other

/-- An answer is written to the file that it is to go to. -/
theorem run_of_canWrite {request : Request}
    (line : CommandLine.ofArguments arguments = .ok (.request request)) {path : FilePath}
    (output : request.options.output = some path) (target : path.text ∉ standardOutputNames)
    {t : Text} (answer : request.answerText { read := files.read, standardInput } = .ok t)
    {location : Location} (h : files.CanWrite path location) {bytes : List UInt8}
    (encoded : Utf8.encode (writtenText t) = .ok bytes) :
    Wrote files (run files arguments standardInput) location bytes := by
  have made : request.answer { read := files.read, standardInput } = .ok ⟨t, some path⟩ := by
    rw [Request.answer, answer, output]
    simp [Option.filter, target, bind, Except.bind, pure, Except.pure]
  have delivered : run files arguments standardInput = writeFile files path t :=
    run_eq_deliver line made
  rw [delivered]
  exact writeFile_wrote h encoded

/-! ## Declarations -/

section

variable {options : Options} {name : Text} {members : List (Text × Json)}

theorem answerText_of_object {sources : Sources} {d : Descriptor}
    (direct : options.descriptor = false) (named : sources.typeName options = .ok name)
    (loaded : sources.document options.input = .ok (.object members))
    (inferred : infer (Sample.ofJson (.object members)) = .ok d) :
    Request.answerText ⟨.render, options⟩ sources =
      .ok (if options.json then (Envelope.ofDeclaration name (d.declare name)).indented
        else d.declare name) := by
  rw [answerText_of_typeName named loaded, direct, declareDocument, Sample.declare, inferred]
  rfl

/-- A declaration ends in a semicolon, so it gets a line end in its file. -/
theorem writtenText_declare (d : Descriptor) (name : Text) :
    writtenText (d.declare name) = d.declare name ++ [ofChar '\n'] := by
  have noLineEnd : (d.declare name).getLast? ≠ some (ofChar '\n') := by
    rw [Descriptor.getLast?_declare]
    decide
  rw [writtenText, if_neg noLineEnd]

theorem printedText_declare_eq_iff (d : Descriptor) (name : Text) :
    printedText (d.declare name) = d.declare name ++ [ofChar '\n'] ↔
      ¬ name.HoldsControl ∧ ∀ field ∈ Outline.allNames d, ¬ field.HoldsControl := by
  rw [printedText, List.append_left_inj, Text.stripControls_eq_self_iff,
    Descriptor.holdsControl_declare_iff]
  simp only [not_or, not_exists, not_and]

theorem getLast?_indented_object (members : List (Text × Json)) :
    (Json.indented (.object members)).getLast? = some (ofChar '\x7d') := by
  rw [Json.indented, Json.indentedAt, Json.block]
  split_ifs
  · rfl
  · rw [← List.cons_append]
    exact List.getLast?_concat

/-- An envelope is ASCII, so it is printed and written in the same bytes, and it is read back. -/
theorem loadJson_ofDeclaration {declaration : Text} (plainName : name.Encodable)
    (plain : declaration.Encodable) :
    ∃ bytes, loadJson bytes = .ok (Envelope.ofDeclaration name declaration) ∧
      Utf8.encode (printedText (Envelope.ofDeclaration name declaration).indented) = .ok bytes ∧
      Utf8.encode (writtenText (Envelope.ofDeclaration name declaration).indented) =
        .ok bytes := by
  have kept : Json.Kept true (Envelope.ofDeclaration name declaration) :=
    kept_record (by decide) (by decide) (by decide) (.text fun _ => plainName)
      (.text fun _ => plain)
  obtain ⟨bytes, encoded, loaded⟩ := loadJson_printed kept
  refine ⟨bytes, loaded, encoded, ?_⟩
  -- Nothing is taken out of ASCII, and a closing brace is no line end.
  have noLineEnd : (Envelope.ofDeclaration name declaration).indented.getLast? ≠
      some (ofChar '\n') := by
    rw [Envelope.ofDeclaration, getLast?_indented_object]
    decide
  rwa [writtenText, if_neg noLineEnd, ← (Json.ascii_indented _).stripControls_eq]

/-- What becomes of the declaration of an object. All three ways come to the declaration with one
line end behind it, except that printing takes out the control sequences in names. -/
theorem run_delivers_declaration
    (line : CommandLine.ofArguments arguments = .ok (.request ⟨.render, options⟩))
    (direct : options.descriptor = false)
    (named : Sources.typeName { read := files.read, standardInput } options = .ok name)
    (loaded : Sources.document { read := files.read, standardInput } options.input =
      .ok (.object members))
    (plainName : name.Encodable) (plain : (Json.object members).Encodable) :
    ∃ d declaration, infer (Sample.ofJson (.object members)) = .ok d ∧
      (Sample.ofJson (.object members)).declare name = .ok declaration ∧
      (options.json = false → options.ToStandardOutput →
        run files arguments standardInput =
          { files, printed := declaration.stripControls ++ [ofChar '\n'] } ∧
        (declaration.stripControls ++ [ofChar '\n'] = declaration ++ [ofChar '\n'] ↔
          ¬ name.HoldsControl ∧ ∀ field ∈ Outline.allNames d, ¬ field.HoldsControl)) ∧
      (options.json = false → ∀ path location, options.output = some path →
        path.text ∉ standardOutputNames → files.CanWrite path location →
          ∃ bytes, Utf8.encode (declaration ++ [ofChar '\n']) = .ok bytes ∧
            Wrote files (run files arguments standardInput) location bytes) ∧
      (options.json = true →
        ∃ bytes, loadJson bytes = .ok (Envelope.ofDeclaration name declaration) ∧
          (options.ToStandardOutput →
            ∃ t, run files arguments standardInput = { files, printed := t } ∧
              Utf8.encode t = .ok bytes) ∧
          ∀ path location, options.output = some path → path.text ∉ standardOutputNames →
            files.CanWrite path location →
              Wrote files (run files arguments standardInput) location bytes) := by
  obtain ⟨d, inferred, -⟩ := exists_infer_ofJson (.object members)
  have declared : (d.declare name).Encodable :=
    (Descriptor.encodable_declare_iff d name).2 ⟨plainName, encodableNames_of_infer plain inferred⟩
  have answer := answerText_of_object direct named loaded inferred
  refine ⟨d, d.declare name, inferred, ?_, fun json output => ?_,
    fun json path location output target writable => ?_, fun json => ?_⟩
  · rw [Sample.declare, inferred]
    rfl
  · rw [json] at answer
    rw [run_of_toStandardOutput line output, answer]
    exact ⟨print_of_encodable files declared, printedText_declare_eq_iff d name⟩
  · rw [json] at answer
    have plainLine : (d.declare name ++ [ofChar '\n']).Encodable :=
      Text.encodable_append.2 ⟨declared, by decide⟩
    have encoded := (Utf8.encode_eq_ok_iff _ _).2 ⟨plainLine, rfl⟩
    refine ⟨_, encoded, run_of_canWrite line output target answer writable ?_⟩
    exact (congrArg Utf8.encode (writtenText_declare d name)).trans encoded
  · rw [json] at answer
    obtain ⟨bytes, envelope, printed, written⟩ := loadJson_ofDeclaration plainName declared
    refine ⟨bytes, envelope, fun output => ?_, fun path location output target writable => ?_⟩
    · rw [run_of_toStandardOutput line output, answer]
      exact ⟨_, print_of_encodable files (Json.ascii_indented _).isSurrogate_eq, printed⟩
    · exact run_of_canWrite line output target answer writable written

end

/-- In the small document no name has an escape in it, so its declaration is printed as it is. -/
theorem run_prints_declaration_of_small_document :
    ∃ declaration,
      (Sample.ofJson (.object [(Text.ofString "a", .array [.null])])).declare
        (Text.ofString "Sample") = .ok declaration ∧
      run {} (renderLine (Text.ofString "Sample") none) smallDocument =
        { files := {}, printed := declaration ++ [ofChar '\n'] } := by
  have line : CommandLine.ofArguments (renderLine (Text.ofString "Sample") none) =
      .ok (.request ⟨.render, lineOptions none (some (Text.ofString "Sample"))⟩) := rfl
  have loaded : documentAt {} none smallDocument =
      .ok (.object [(Text.ofString "a", .array [.null])]) := rfl
  have plain : (Json.object [(Text.ofString "a", .array [.null])]).Encodable := by
    have name : Text.Encodable (Text.ofString "a") := by decide
    refine .object (List.forall_mem_singleton.2 name) (List.forall_mem_singleton.2 ?_)
    exact .array (List.forall_mem_singleton.2 .null)
  obtain ⟨d, declaration, inferred, declared, prints, -⟩ :=
    run_delivers_declaration line rfl rfl loaded (by decide) plain
  obtain ⟨printed, same⟩ := prints rfl nofun
  have type : infer (Sample.ofJson (.object [(Text.ofString "a", .array [.null])])) =
      .ok (.object [(Text.ofString "a", .array (.primitive .null))]) := rfl
  rw [type] at inferred
  cases inferred
  refine ⟨declaration, declared, ?_⟩
  rw [printed, same.2 ⟨Text.not_holdsControl_of_notMem (by decide), ?_⟩]
  exact List.forall_mem_singleton.2 (Text.not_holdsControl_of_notMem (by decide))

/-- A member whose name has a control sequence in it: what is printed is not the declaration. -/
theorem run_loses_control_sequence :
    let bytes := (Text.ofString "\x7b\"a\\u001b[0mb\": 1\x7d").flatMap Utf8.encodeOne
    let name := Text.ofString "T"
    let declaration := Text.ofString "type T = \x7b\n  a\x1b[0mb: number;\n\x7d;"
    (loadJson bytes >>= declareDocument name).toOption = some declaration ∧
      (run {} (renderLine name none) bytes).failure = none ∧
      (run {} (renderLine name none) bytes).printed =
        Text.ofString "type T = \x7b\n  ab: number;\n\x7d;\n" ∧
      (run {} (renderLine name none) bytes).printed ≠ declaration ++ [ofChar '\n'] := by
  decide +kernel

end Command

end SampleTypes
