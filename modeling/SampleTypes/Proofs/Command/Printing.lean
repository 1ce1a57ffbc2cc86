import SampleTypes.Proofs.Command.Lines
import SampleTypes.Proofs.Text.Control

/-!
# Answers that are printed

An answer goes to standard output if no file is named for it, or a path that stands for standard
output. It is printed then, unless it has a surrogate in it: printing takes control sequences out of
a text, but no surrogate.

## Main definitions

* `Command.Options.ToStandardOutput` — the options of a request whose answer is printed

## Main results

* `Command.run_of_toStandardOutput` — what comes of such a request
* `Command.answerText_of_typeName` — the answer to a request for a declaration
* `Command.print_of_encodable`, `Command.print_of_not_encodable` — which texts are printed
-/

namespace SampleTypes.Command

/-- No file is named for the answer, or a path that stands for standard output. -/
def Options.ToStandardOutput (options : Options) : Prop :=
  ∀ path, options.output = some path → path.text ∈ standardOutputNames

variable {files : Files} {arguments : List Text} {standardInput : List UInt8}

/-! ## Requests -/

theorem Request.answer_of_toStandardOutput {request : Request}
    (h : request.options.ToStandardOutput) (sources : Sources) :
    request.answer sources = (request.answerText sources).map fun t => ⟨t, none⟩ := by
  have noTarget : (request.options.output.filter fun path =>
      !standardOutputNames.contains path.text) = none := by
    rw [Option.filter_eq_none_iff]
    intro path named
    simpa using h path named
  rw [Request.answer, noTarget]
  rfl

/-- The answer is printed, or it is told why there is none. -/
theorem run_of_toStandardOutput {request : Request}
    (line : CommandLine.ofArguments arguments = .ok (.request request))
    (h : request.options.ToStandardOutput) :
    run files arguments standardInput =
      match request.answerText { read := files.read, standardInput } with
      | .ok t => print files t
      | .error failure => { files, failure := some failure } := by
  have answer := request.answer_of_toStandardOutput h { read := files.read, standardInput }
  cases made : request.answerText { read := files.read, standardInput } with
  | ok t => exact run_eq_deliver line (by rw [CommandLine.answer, answer, made]; rfl)
  | error failure => exact run_eq_failure line (by rw [CommandLine.answer, answer, made]; rfl)

/-- A declaration is made of the name of the type and of the document, and then put into an envelope
if that is asked for. -/
theorem answerText_of_typeName {options : Options} {sources : Sources} {name : Text}
    {document : Json} (named : sources.typeName options = .ok name)
    (loaded : sources.document options.input = .ok document) :
    Request.answerText ⟨.render, options⟩ sources =
      (if options.descriptor then declareDescriptor name document
        else declareDocument name document).map fun declaration =>
          if options.json then (Envelope.ofDeclaration name declaration).indented
          else declaration := by
  simp only [Request.answerText, named, loaded, bind, Except.bind]
  cases options.descriptor with
  | true => cases declareDescriptor name document <;> rfl
  | false => cases declareDocument name document <;> rfl

/-! ## Printing -/

theorem encodable_printedText (t : Text) : (printedText t).Encodable ↔ t.Encodable := by
  have lineEnd : Text.Encodable [ofChar '\n'] := by decide
  rw [printedText, Text.encodable_append, and_iff_left lineEnd, Text.encodable_stripControls]

theorem print_of_encodable (files : Files) {t : Text} (h : t.Encodable) :
    print files t = { files, printed := printedText t } := by
  have encoded := (Utf8.encode_eq_ok_iff _ _).2 ⟨(encodable_printedText t).2 h, rfl⟩
  simp only [print_eq, encoded]

theorem print_of_not_encodable (files : Files) {t : Text} (h : ¬ t.Encodable) :
    ∃ fault, print files t = { files, failure := some (.unencodable fault) } := by
  cases encoded : Utf8.encode (printedText t) with
  | ok bytes =>
    have plain := ((Utf8.encode_eq_ok_iff _ _).1 encoded).1
    exact absurd ((encodable_printedText t).1 plain) h
  | error fault => exact ⟨fault, by simp only [print_eq, encoded]⟩

end SampleTypes.Command
