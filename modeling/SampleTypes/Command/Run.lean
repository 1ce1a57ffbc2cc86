import SampleTypes.Command.Options
import SampleTypes.Envelope
import SampleTypes.Settings.File
import SampleTypes.Text.Terminal
import SampleTypes.TypeName

/-!
# Running commands

A command reads a document and answers with a text, or fails. The answer is then delivered: it
is printed, or written to a file. Answering does not touch files, so the only failures after
which they differ are those of delivering.

A run is decided before anything is done. From the arguments follows what is to be read, and from
what was read there the actions to take, one after another until one of them fails. A command runs
the same way on every host that can read and take these actions. One such host consists of files
that are a value.

## Main definitions

* `Command.Failure` — how a command fails
* `Command.Request.answer` — the text with which a command answers, and where it goes
* `Command.helpText` — what is told of the commands
* `Command.needs` — what a command line reads
* `Command.plan` — the actions that it comes to
* `Command.Host.run` — a command line run on a host
* `Command.run` — a command line run on files: what is printed, how it fails, and the files then
-/

namespace SampleTypes.Command

/-- How a command fails. -/
inductive Failure where
  /-- The command line makes no request. -/
  | usage (error : UsageError)
  /-- The document cannot be read. -/
  | unreadable (error : AccessError)
  /-- The document is no JSON document. -/
  | invalidJson (problem : Json.Problem) (place : Json.Place)
  /-- Declarations are made of objects only. -/
  | notObject
  /-- The document is no answer of `infer`. -/
  | invalidDescriptor (faults : List Envelope.Fault)
  /-- The digest is not that of the descriptor. -/
  | digestMismatch
  /-- What stands for a descriptor is none. -/
  | format (error : FormatError)
  /-- The document holds a value without a type. -/
  | untyped (reason : Untyped)
  /-- Bytes to be read are no text. -/
  | undecodable (fault : Utf8.Malformed)
  /-- A number to be read is too long. -/
  | integerTooLong (digits : Nat)
  /-- A text to be written, or to take the digest of, has no bytes. -/
  | unencodable (fault : Utf8.Unencodable)
  /-- The answer cannot be written to its file. -/
  | inaccessible (error : AccessError)
  deriving DecidableEq, Repr

/-- The text of a failure. -/
def Failure.message : Failure → Text
  | .usage error => error.message
  | .unreadable error =>
    Text.ofString "Unable to read " ++ error.path.text ++ Text.ofString ": " ++ error.message
  | .invalidJson problem place =>
    Text.ofString "Invalid JSON payload: " ++ (Json.ReadError.malformed problem place).message
  | .notObject => Text.ofString "Render payload must be a JSON object."
  | .invalidDescriptor _ => Text.ofString "Invalid descriptor payload"
  | .digestMismatch => Text.ofString "Descriptor digest does not match its payload."
  | .format error => error.message
  | .untyped reason => reason.message
  | .undecodable fault => fault.message
  | .integerTooLong digits => Json.tooLongMessage digits
  | .unencodable fault => fault.message
  | .inaccessible error => error.message

/-- The class of a failure. -/
inductive FailureClass where
  /-- The command cannot do what it was asked to. -/
  | rejected
  /-- The command ends with a message of its own on standard error. -/
  | reported
  /-- Something that no command expects. -/
  | unforeseen
  deriving DecidableEq, Repr

/-- The class of a failure. -/
def Failure.toClass : Failure → FailureClass
  | .usage ⟨.unusablePath _, _⟩ => .unforeseen
  | .usage _ => .rejected
  | .unreadable _ => .rejected
  | .invalidJson _ _ => .rejected
  | .notObject => .rejected
  | .invalidDescriptor _ => .rejected
  | .digestMismatch => .rejected
  | .format _ => .reported
  | .untyped (.unsupported _) => .reported
  | .untyped .noItem => .unforeseen
  | .undecodable _ => .unforeseen
  | .integerTooLong _ => .unforeseen
  | .unencodable _ => .unforeseen
  | .inaccessible _ => .unforeseen

/-! ## Answers -/

/-- What a command reads from. -/
structure Sources where
  /-- The bytes of files. -/
  read : FilePath → Except AccessError (List UInt8)
  /-- The bytes of standard input. -/
  standardInput : List UInt8

/-- An answer, and the file it is to be written to. -/
structure Answer where
  text : Text
  target : Option FilePath
  deriving DecidableEq, Repr

/-- The bytes of the document of a request. -/
def Sources.bytes (sources : Sources) (input : Option FilePath) : Except Failure (List UInt8) :=
  match input with
  | none => .ok sources.standardInput
  | some path => (sources.read path).mapError .unreadable

/-- The JSON value in some bytes. -/
def loadJson (bytes : List UInt8) : Except Failure Json := do
  let document ← (Text.ofDocument bytes).mapError .undecodable
  (Json.read document).mapError fun
    | .malformed problem place => .invalidJson problem place
    | .integerTooLong digits => .integerTooLong digits

/-- The JSON value in the document of a request. -/
def Sources.document (sources : Sources) (input : Option FilePath) : Except Failure Json := do
  loadJson (← sources.bytes input)

/-- The settings of a request. -/
def Sources.settings (sources : Sources) (options : Options) : Except Failure Settings :=
  let path := Settings.path { names := [] } options.config
  (Settings.atPath sources.read path).mapError fun
    | .undecodable fault => .undecodable fault
    | .integerTooLong digits => .integerTooLong digits
    | .unusablePath fault => .usage ⟨.unusablePath fault, []⟩

/-- The name of a type by the settings: the one they hold, or one after the document if they say
so, or the default. -/
def nameBySettings (settings : Settings) (input : Option FilePath) : Text :=
  match settings.typeName, input with
  | some name, _ => name
  | none, some path =>
    if settings.deriveName then TypeName.suggest path.stem else Declaration.defaultName
  | none, none => Declaration.defaultName

/-- The name of a type. Settings are read only if no name is given. -/
def Sources.typeName (sources : Sources) (options : Options) : Except Failure Text :=
  match options.name with
  | some name => .ok name
  | none => do
    let settings ← sources.settings options
    return nameBySettings (settings.withDeriveName options.deriveName) options.input

/-- The answer of an inference: the descriptor of a document and its digest. -/
def inferAnswer (document : Json) : Except Failure Text := do
  let descriptor ← (infer (Sample.ofJson document)).mapError .untyped
  let digest ← descriptor.toJson.digest.mapError .unencodable
  return (Envelope.ofInference descriptor.toJson digest).indented

/-- The declaration of the type of a document. -/
def declareDocument (name : Text) (document : Json) : Except Failure Text :=
  match document with
  | .object _ => ((Sample.ofJson document).declare name).mapError .untyped
  | _ => .error .notObject

/-- The declaration of the descriptor in an answer of an inference, if its digest is right. -/
def declareDescriptor (name : Text) (document : Json) : Except Failure Text := do
  let (payload, digest) ← (Envelope.readInference document).mapError .invalidDescriptor
  -- The digest is checked before the descriptor is read, so it is the fault that is reported.
  if (← payload.digest.mapError .unencodable) ≠ digest then throw .digestMismatch
  let descriptor ← (Descriptor.ofSample (Sample.ofJson payload)).mapError .format
  return descriptor.declare name

/-- The text with which a command answers. -/
def Request.answerText (request : Request) (sources : Sources) : Except Failure Text :=
  let options := request.options
  match request.verb with
  | .infer => do inferAnswer (← sources.document options.input)
  | .render => do
    -- Faults of the settings come before those of the document.
    let name ← sources.typeName options
    let document ← sources.document options.input
    let declaration ←
      if options.descriptor then declareDescriptor name document
      else declareDocument name document
    return if options.json then (Envelope.ofDeclaration name declaration).indented
      else declaration

/-- The paths that stand for standard output. -/
def standardOutputNames : List Text := ["-", "/dev/stdout"].map Text.ofString

/-- The answer of a command. -/
def Request.answer (request : Request) (sources : Sources) : Except Failure Answer := do
  let text ← request.answerText sources
  return ⟨text, request.options.output.filter fun path => !standardOutputNames.contains path.text⟩

/-! ## Help -/

/-- An option as it is shown, with a place for its value. -/
def Rule.shown (rule : Rule) : Text :=
  match rule.effect with
  | .switch _ => rule.name
  | .value _ => rule.name ++ Text.ofString " VALUE"

/-- A command as it is shown, with its options. -/
def Verb.shown (verb : Verb) : Text :=
  Text.joinWith [ofChar ' ']
    (verb.word :: verb.rules.map fun rule => [ofChar '['] ++ rule.shown ++ [ofChar ']'])

/-- What is told of a command, or of all: its word and its options, a command a line. -/
def helpText : Option Verb → Text
  | some verb => verb.shown
  | none => Text.joinWith [ofChar '\n'] (Verb.all.map Verb.shown)

/-- What a command line is answered with. -/
def CommandLine.answer (line : CommandLine) (sources : Sources) : Except Failure Answer :=
  match line with
  | .help verb => .ok ⟨helpText verb, none⟩
  | .request made => made.answer sources

/-! ## What is read -/

/-- What has to be read before a command line can be answered. -/
structure Needs where
  files : List FilePath := []
  standardInput : Bool := false
  deriving DecidableEq, Repr

/-- A request reads its document, and the settings if they are to name the type. -/
def Request.needs (request : Request) : Needs :=
  let options := request.options
  let namedBySettings := request.verb = .render ∧ options.name = none
  let settings := if namedBySettings then [Settings.path { names := [] } options.config] else []
  { files := options.input.toList ++ settings, standardInput := options.input.isNone }

/-- What a command line reads. -/
def needs (arguments : List Text) : Needs :=
  match CommandLine.ofArguments arguments with
  | .ok (.request request) => request.needs
  | _ => {}

/-- The sources in which some files were found, or how these cannot be read, and no others. -/
def Sources.ofFound (found : List (FilePath × Except AccessError (List UInt8)))
    (standardInput : List UInt8) : Sources where
  read path := (found.lookup path).getD (.error ⟨.missing, path⟩)
  standardInput := standardInput

/-! ## What is done -/

/-- A step of delivering an answer. -/
inductive Action where
  /-- Print a text as it is. -/
  | print (t : Text)
  /-- Make a directory, with those above it. -/
  | makeDirectories (path : FilePath)
  /-- Write bytes to a file, in place of what it held. -/
  | write (path : FilePath) (bytes : List UInt8)
  /-- End with a failure. -/
  | fail (failure : Failure)
  deriving DecidableEq, Repr

/-- The text as it is printed: without control sequences, on lines of its own. -/
def printedText (t : Text) : Text := t.stripControls ++ [ofChar '\n']

/-- The text as it is written to a file: the last line has an end. -/
def writtenText (t : Text) : Text :=
  if t.getLast? = some (ofChar '\n') then t else t ++ [ofChar '\n']

/-- To print a text. -/
def printing (t : Text) : List Action :=
  match Utf8.encode (printedText t) with
  | .ok _ => [.print (printedText t)]
  | .error fault => [.fail (.unencodable fault)]

/-- To write a text to a file, in a directory that is made if need be. The file is emptied first,
and stays so if the text has no bytes. -/
def writing (path : FilePath) (t : Text) : List Action :=
  [.makeDirectories path.parent, .write path [],
    match Utf8.encode (writtenText t) with
    | .ok bytes => .write path bytes
    | .error fault => .fail (.unencodable fault)]

/-- To print an answer, or to write it to its file. -/
def Answer.actions (answer : Answer) : List Action :=
  match answer.target with
  | none => printing answer.text
  | some path => writing path answer.text

/-- What a command line comes to. -/
def plan (arguments : List Text) (sources : Sources) : List Action :=
  let answer := do
    let line ← (CommandLine.ofArguments arguments).mapError Failure.usage
    line.answer sources
  match answer with
  | .ok answer => answer.actions
  | .error failure => [.fail failure]

/-! ## Runs -/

/-- What a command runs on: files and standard input to read from, and actions to take. -/
structure Host (m : Type → Type) where
  /-- Read a file. -/
  read : FilePath → m (Except AccessError (List UInt8))
  /-- Read standard input to its end. -/
  standardInput : m (List UInt8)
  /-- Take an action, and tell if it fails. -/
  take : Action → m (Option Failure)

section

variable {m : Type → Type} [Monad m]

/-- Read what a command line needs. -/
def Host.gather (host : Host m) (needs : Needs) : m Sources := do
  let found ← needs.files.mapM fun path => return (path, ← host.read path)
  let standardInput ← if needs.standardInput then host.standardInput else pure []
  return .ofFound found standardInput

/-- Take actions one after another, until one of them fails. -/
def takeEach (take : Action → m (Option Failure)) : List Action → m (Option Failure)
  | [] => return none
  | action :: rest => do
    match ← take action with
    | some failure => return some failure
    | none => takeEach take rest

/-- Run a command line. -/
def Host.run (host : Host m) (arguments : List Text) : m (Option Failure) := do
  let sources ← host.gather (needs arguments)
  takeEach host.take (plan arguments sources)

end

/-! ## Runs on files that are a value -/

/-- What has happened when a command has ended. -/
structure Outcome where
  files : Files
  /-- The text on standard output. -/
  printed : Text := []
  failure : Option Failure := none
  deriving DecidableEq, Repr

/-- Take an action on files and on the text that has been printed. -/
def Action.take : Action → StateM (Files × Text) (Option Failure)
  | .print t => fun (files, printed) => (none, files, printed ++ t)
  | .makeDirectories path => fun (files, printed) =>
    -- Those above one that cannot be made are there all the same.
    let (files, error) := files.makeDirectories path
    (error.map .inaccessible, files, printed)
  | .write path bytes => fun (files, printed) =>
    match files.write path bytes with
    | .ok files => (none, files, printed)
    | .error error => (some (.inaccessible error), files, printed)
  | .fail failure => return some failure

/-- Files and standard input that are values. -/
def Host.ofFiles (standardInput : List UInt8) : Host (StateM (Files × Text)) where
  read path := do return (← get).1.read path
  standardInput := return standardInput
  take := Action.take

/-- What comes of something done on files, before which nothing has been printed. -/
def Outcome.of (done : StateM (Files × Text) (Option Failure)) (files : Files) : Outcome :=
  let (failure, files, printed) := done (files, [])
  { files, printed, failure }

/-- Take actions on files. -/
def perform (files : Files) (actions : List Action) : Outcome :=
  Outcome.of (takeEach Action.take actions) files

/-- Print a text. -/
def print (files : Files) (t : Text) : Outcome := perform files (printing t)

/-- Write a text to a file. -/
def writeFile (files : Files) (path : FilePath) (t : Text) : Outcome :=
  perform files (writing path t)

/-- Deliver an answer. -/
def Answer.deliver (answer : Answer) (files : Files) : Outcome := perform files answer.actions

/-- Run a command line on files and standard input. -/
def run (files : Files) (arguments : List Text) (standardInput : List UInt8) : Outcome :=
  Outcome.of ((Host.ofFiles standardInput).run arguments) files

end SampleTypes.Command
