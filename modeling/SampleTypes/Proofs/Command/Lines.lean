import SampleTypes.Proofs.Command.Plans

/-!
# Command lines and what they print

The command lines that the documentation of the program shows: the inference of a document, and the
declarations of a document and of a descriptor under a name. The document comes from standard input
unless a file is named. Each line is read the same way whatever the name and the path are, as long
as the path can name a file.

## Main definitions

* `Command.inferLine`, `Command.renderLine`, `Command.renderDescriptorLine` — the arguments
* `Command.documentAt` — the document they are about

## Main results

* `Command.run_eq_print` — an answer without a file to go to is printed
* `Command.exists_answer_of_run` — what ends without failure has answered
-/

namespace SampleTypes.Command

/-- The arguments that name the file with the document, if it is in a file. -/
def inputArguments : Option Text → List Text
  | none => []
  | some path => [Text.ofString "--input", path]

/-- The arguments for the type of a document. -/
def inferLine (input : Option Text) : List Text := Text.ofString "infer" :: inputArguments input

/-- The arguments for the declaration of the type of a document under a name. -/
def renderLine (name : Text) (input : Option Text) : List Text :=
  Text.ofString "render" :: Text.ofString "--name" :: name :: inputArguments input

/-- The arguments for the declaration of a descriptor under a name. -/
def renderDescriptorLine (name : Text) : List Text :=
  ["render", "--descriptor", "--name"].map Text.ofString ++ [name]

/-- The document in a file, or else on standard input. -/
def documentAt (files : Files) (input : Option Text) (standardInput : List UInt8) :
    Except Failure Json :=
  Sources.document { read := files.read, standardInput } (input.map .ofText)

/-! ## Reading the lines -/

/-- The options that name the file with the document, and the type. -/
def lineOptions (input name : Option Text) : Options :=
  { paths := (input.map fun path => (.input, path)).toList, name }

@[simp] theorem name_lineOptions (input name : Option Text) :
    (lineOptions input name).name = name := rfl

@[simp] theorem input_lineOptions (input name : Option Text) :
    (lineOptions input name).input = input.map .ofText := by
  cases input <;> rfl

@[simp] theorem output_lineOptions (input name : Option Text) :
    (lineOptions input name).output = none := by
  cases input <;> rfl

@[simp] theorem pathFault?_lineOptions (input name : Option Text) :
    (lineOptions input name).pathFault? = input.bind PathFault.of? := by
  cases input with
  | none => rfl
  | some path =>
    cases fault : PathFault.of? path with
    | none => simp [Options.pathFault?, lineOptions, fault]
    | some _ => simp [Options.pathFault?, lineOptions, fault]

/-- Options that ask for no help are taken as they stand, if their paths can name files. -/
theorem Verb.ofArguments_eq {verb : Verb} {arguments : List Text} {options : Options}
    (read : readOptions verb.rules {} [] arguments = .ok (options, []))
    (noHelp : options.help = false) :
    verb.ofArguments arguments =
      match options.pathFault? with
      | none => .ok (.request ⟨verb, options⟩)
      | some fault => .error (.unusablePath fault) := by
  rw [Verb.ofArguments, read]
  simp only [Except.bind, bind, noHelp]
  cases options.pathFault? <;> rfl

theorem ofArguments_inferLine (input : Option Text) :
    CommandLine.ofArguments (inferLine input) =
      match input.bind PathFault.of? with
      | none => .ok (.request ⟨.infer, lineOptions input none⟩)
      | some fault => .error ⟨.unusablePath fault, []⟩ := by
  -- The reader of options never looks into the path, so it can be evaluated on any.
  have read : readOptions Verb.infer.rules {} [] (inputArguments input) =
      .ok (lineOptions input none, []) := by cases input <;> rfl
  have verb : CommandLine.ofArguments (inferLine input) =
      (Verb.infer.ofArguments (inputArguments input)).mapError fun problem => ⟨problem, []⟩ := rfl
  rw [verb, Verb.ofArguments_eq read rfl, pathFault?_lineOptions]
  cases input.bind PathFault.of? <;> rfl

theorem ofArguments_renderLine (name : Text) (input : Option Text) :
    CommandLine.ofArguments (renderLine name input) =
      match input.bind PathFault.of? with
      | none => .ok (.request ⟨.render, lineOptions input (some name)⟩)
      | some fault => .error ⟨.unusablePath fault, []⟩ := by
  have read : readOptions Verb.render.rules {} []
        (Text.ofString "--name" :: name :: inputArguments input) =
      .ok (lineOptions input (some name), []) := by cases input <;> rfl
  have verb : CommandLine.ofArguments (renderLine name input) =
      (Verb.render.ofArguments (Text.ofString "--name" :: name :: inputArguments input)).mapError
        fun problem => ⟨problem, []⟩ := rfl
  rw [verb, Verb.ofArguments_eq read rfl, pathFault?_lineOptions]
  cases input.bind PathFault.of? <;> rfl

theorem ofArguments_renderDescriptorLine (name : Text) :
    CommandLine.ofArguments (renderDescriptorLine name) =
      .ok (.request ⟨.render, { name := some name, descriptor := true }⟩) := rfl

/-! ## Running them -/

section

variable {files : Files} {arguments : List Text} {standardInput : List UInt8} {request : Request}

/-- An answer of a request that names no file for it is printed. -/
theorem run_eq_print (line : CommandLine.ofArguments arguments = .ok (.request request))
    (noOutput : request.options.output = none) {t : Text}
    (answer : request.answerText { read := files.read, standardInput } = .ok t) :
    run files arguments standardInput = print files t := by
  have made : request.answer { read := files.read, standardInput } = .ok ⟨t, none⟩ := by
    rw [Request.answer, answer, noOutput]
    rfl
  exact run_eq_deliver line made

/-- What ends without failure has answered. -/
theorem exists_answer_of_run (line : CommandLine.ofArguments arguments = .ok (.request request))
    (succeeds : (run files arguments standardInput).failure = none) :
    ∃ t, request.answerText { read := files.read, standardInput } = .ok t := by
  cases answer : request.answerText { read := files.read, standardInput } with
  | ok t => exact ⟨t, rfl⟩
  | error failure =>
    have refused : request.answer { read := files.read, standardInput } = .error failure := by
      rw [Request.answer, answer]
      rfl
    rw [run_eq_failure line refused] at succeeds
    cases succeeds

end

end SampleTypes.Command
