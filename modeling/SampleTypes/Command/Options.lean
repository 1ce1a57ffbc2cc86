import SampleTypes.Files.Path
import SampleTypes.Text.Quoted
import SampleTypes.Text.Similarity
import SampleTypes.Text.Terminal

/-!
# Command lines

A command line names a command and gives its options. An option is a long name after two strokes;
it is a switch or takes a value, which follows as an argument of its own or after an equals sign.
Of options given twice the last one counts. Two strokes alone end the options. No command takes
arguments besides its options. Instead of a command, help can be asked for, of the program as a
whole or of one command.

Of a word that is no command, similar commands are offered. Before that, the word is taken for an
option once more, because it may stand after two strokes; what is offered then is similar to the
first argument that is left.

## Main definitions

* `Command.Verb`, `Command.Options` — the commands, and what options say
* `Command.UsageError` — what can be wrong with a command line, with its message
* `Command.CommandLine`, `Command.CommandLine.ofArguments` — what a command line asks for
-/

namespace SampleTypes.Command

/-- The commands. -/
inductive Verb where
  /-- Print the structural type of a document. -/
  | infer
  /-- Print the declaration of a type. -/
  | render
  deriving DecidableEq, Repr

/-- The word for a command. -/
def Verb.word : Verb → Text
  | .infer => Text.ofString "infer"
  | .render => Text.ofString "render"

/-- All commands. -/
def Verb.all : List Verb := [.infer, .render]

/-- The command with a given word. -/
def Verb.ofText? (t : Text) : Option Verb := Verb.all.find? fun verb => verb.word = t

/-- The words for commands that are similar to a word that is none. -/
def Verb.similarTo (t : Text) : List Text := Text.closest (Verb.all.map Verb.word) t

/-! ## Options -/

/-- The options that name files. -/
inductive PathOption where
  /-- The document; without one, standard input is read. -/
  | input
  /-- Where the result goes; without a path, to standard output. -/
  | output
  /-- The file with settings. -/
  | config
  deriving DecidableEq, Repr

/-- What the options of a command line say. -/
structure Options where
  /-- The texts given for paths, each option at the place where it was given first. -/
  paths : List (PathOption × Text) := []
  /-- The name of the type. -/
  name : Option Text := none
  /-- The document is an answer of `infer`. -/
  descriptor : Bool := false
  /-- Whether the type is named after the document, if something is said about it. -/
  deriveName : Option Bool := none
  /-- The result is a JSON object. -/
  json : Bool := false
  /-- Nothing is to be done but to tell of the options. -/
  help : Bool := false
  deriving DecidableEq, Repr

namespace Options

/-- Give an option a path: in place if it has one, else at the end. -/
def setPath (option : PathOption) (t : Text) (options : Options) : Options :=
  { options with
    paths :=
      if options.paths.any fun given => given.1 = option then
        options.paths.map fun given => if given.1 = option then (option, t) else given
      else options.paths ++ [(option, t)] }

/-- The path that an option has been given. -/
def path? (options : Options) (option : PathOption) : Option FilePath :=
  (options.paths.lookup option).map .ofText

/-- The path of the document. -/
def input (options : Options) : Option FilePath := options.path? .input

/-- The path that the result goes to. -/
def output (options : Options) : Option FilePath := options.path? .output

/-- The path of the file with settings. -/
def config (options : Options) : Option FilePath := options.path? .config

/-- Why the first of the texts given for paths that names no file does not. -/
def pathFault? (options : Options) : Option PathFault :=
  options.paths.findSome? fun given => PathFault.of? given.2

end Options

/-- What an option does. -/
inductive Effect where
  | switch (set : Options → Options)
  | value (set : Text → Options → Options)

/-- An option with its name. -/
structure Rule where
  name : Text
  effect : Effect

/-- An option that takes a value. -/
def valued (name : String) (set : Text → Options → Options) : Rule :=
  ⟨Text.ofString name, .value set⟩

/-- An option that takes no value. -/
def switch (name : String) (set : Options → Options) : Rule := ⟨Text.ofString name, .switch set⟩

/-- The option that asks for help, before a command and after it. -/
def helpRule : Rule := switch "--help" fun o => { o with help := true }

/-- The options of both commands. -/
def sharedRules : List Rule :=
  [helpRule, valued "--input" (Options.setPath .input), valued "--output" (Options.setPath .output)]

/-- The options of `render` alone. -/
def renderRules : List Rule :=
  [valued "--name" fun t o => { o with name := some t },
    switch "--descriptor" fun o => { o with descriptor := true },
    switch "--derive-name" fun o => { o with deriveName := some true },
    switch "--no-derive-name" fun o => { o with deriveName := some false },
    valued "--config" (Options.setPath .config),
    switch "--json" fun o => { o with json := true }]

/-- The options of a command. -/
def Verb.rules : Verb → List Rule
  | .infer => sharedRules
  | .render => sharedRules ++ renderRules

/-! ## Errors -/

/-- What is wrong with a command line. -/
inductive UsageProblem where
  | missingCommand
  | noSuchCommand (name : Text)
  | noSuchOption (name : Text)
  | missingValue (option : Text)
  | unexpectedValue (option : Text)
  | unusablePath (fault : PathFault)
  | extraArguments (arguments : List Text)
  deriving DecidableEq, Repr

/-- The text of a problem. -/
def UsageProblem.message : UsageProblem → Text
  | .missingCommand => Text.ofString "Missing command."
  | .noSuchCommand name => Text.ofString "No such command " ++ name.quoted ++ Text.ofString "."
  | .noSuchOption name => Text.ofString "No such option: " ++ name.showControls
  | .missingValue option =>
    Text.ofString "Option " ++ option.quoted ++ Text.ofString " requires an argument."
  | .unexpectedValue option =>
    Text.ofString "Option " ++ option.quoted ++ Text.ofString " does not take a value."
  | .unusablePath fault => fault.message
  | .extraArguments arguments =>
    Text.ofString "Got unexpected extra argument(s) ("
      ++ Text.joinWith [ofChar ' '] arguments ++ Text.ofString ")"

/-- What is wrong with a command line, and the commands that are offered instead of what it
says. -/
structure UsageError where
  problem : UsageProblem
  offers : List Text := []
  deriving DecidableEq, Repr

/-- A message without the points at its end. -/
def withoutPoints (message : Text) : Text :=
  (message.reverse.dropWhile (· == ofChar '.')).reverse

/-- The text of an error: that of the problem, and the commands on offer, if there are any. -/
def UsageError.message (error : UsageError) : Text :=
  match error.offers with
  | [] => error.problem.message
  | offers =>
    withoutPoints error.problem.message ++ Text.ofString ". Did you mean "
      ++ Text.joinWith (Text.ofString ", ") (offers.map Text.quoted) ++ Text.ofString "?"

/-! ## Arguments -/

/-- Two strokes, which end the options. -/
def ending : Text := Text.ofString "--"

/-- Whether an argument is meant as an option: it begins with a stroke and goes on. -/
def isOption (argument : Text) : Bool :=
  match argument with
  | c :: _ :: _ => c == ofChar '-'
  | _ => false

/-- An argument that is meant as an option: its name, and the value after an equals sign. -/
def nameAndValue (argument : Text) : Text × Option Text :=
  match argument.splitAt? (ofChar '=') with
  | some (name, value) => (name, some value)
  | none => (argument, none)

/-- The name under which an unknown option is reported: after one stroke only the first letter
counts. -/
def reportedName (argument : Text) : Text :=
  if ending.isPrefixOf argument then (nameAndValue argument).1 else argument.take 2

/-- Read the arguments of a command one after another. Those that are no options are kept
reversed. -/
def readOptions (rules : List Rule) (options : Options) (extra : List Text) :
    List Text → Except UsageProblem (Options × List Text)
  | [] => .ok (options, extra.reverse)
  | argument :: rest =>
    if argument = ending then .ok (options, extra.reverse ++ rest)
    else if !isOption argument then readOptions rules options (argument :: extra) rest
    else
      -- A value after an equals sign is taken as it is, an empty one too.
      let (name, value) := nameAndValue argument
      match rules.find? fun rule => rule.name = name, value with
      | none, _ => .error (.noSuchOption (reportedName argument))
      | some ⟨_, .switch set⟩, none => readOptions rules (set options) extra rest
      | some ⟨_, .switch _⟩, some _ => .error (.unexpectedValue name)
      | some ⟨_, .value set⟩, some value => readOptions rules (set value options) extra rest
      | some ⟨_, .value set⟩, none =>
        match rest with
        | [] => .error (.missingValue name)
        | value :: rest => readOptions rules (set value options) extra rest

/-- What stands before the word for a command. -/
structure Preamble where
  /-- Whether help is asked for, or what is wrong. -/
  outcome : Except UsageProblem Bool
  /-- The arguments that are left. -/
  rest : List Text

/-- Read what stands before the word for a command; no option but the one for help may. -/
def readPreamble (help : Bool) : List Text → Preamble
  | [] => ⟨.ok help, []⟩
  | argument :: rest =>
    if argument = ending then ⟨.ok help, rest⟩
    else if !isOption argument then ⟨.ok help, argument :: rest⟩
    else
      let (name, value) := nameAndValue argument
      if name ≠ helpRule.name then ⟨.error (.noSuchOption (reportedName argument)), rest⟩
      else if value.isSome then ⟨.error (.unexpectedValue name), rest⟩
      else readPreamble true rest

/-! ## Requests -/

/-- A command with its options. -/
structure Request where
  verb : Verb
  options : Options := {}
  deriving DecidableEq, Repr

/-- What a command line asks for. -/
inductive CommandLine where
  /-- To be told of the options, of one command or of all. -/
  | help (verb : Option Verb)
  | request (request : Request)
  deriving DecidableEq, Repr

/-- What a command is asked for by the arguments after its word. Help comes before all that does
not concern the options themselves. -/
def Verb.ofArguments (verb : Verb) (arguments : List Text) :
    Except UsageProblem CommandLine := do
  let (options, extra) ← readOptions verb.rules {} [] arguments
  -- The order of these checks is the order in which faults are reported.
  if options.help then return .help (some verb)
  if let some fault := options.pathFault? then throw (.unusablePath fault)
  if extra ≠ [] then throw (.extraArguments extra)
  return .request ⟨verb, options⟩

/-- The commands that are similar to the first of the arguments. -/
def offersFor : List Text → List Text
  | [] => []
  | argument :: _ => Verb.similarTo argument

/-- What is asked for by arguments of which the first is no command. -/
def ofUnknownCommand (word : Text) (rest : List Text) : Except UsageError CommandLine :=
  let preamble := readPreamble false (word :: rest)
  let offers := offersFor preamble.rest
  match preamble.outcome with
  | .ok true => .ok (.help none)
  | .ok false => .error ⟨.noSuchCommand word, offers⟩
  | .error problem => .error ⟨problem, offers⟩

/-- What a command line asks for. -/
def CommandLine.ofArguments (arguments : List Text) : Except UsageError CommandLine :=
  let preamble := readPreamble false arguments
  match preamble.outcome, preamble.rest with
  | .error problem, _ => .error ⟨problem, []⟩
  | .ok true, _ => .ok (.help none)
  | .ok false, [] => .error ⟨.missingCommand, []⟩
  | .ok false, word :: rest =>
    match Verb.ofText? word with
    | none => ofUnknownCommand word rest
    | some verb => (verb.ofArguments rest).mapError fun problem => ⟨problem, []⟩

end SampleTypes.Command
