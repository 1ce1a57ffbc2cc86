import SampleTypes.Command.Run
import SampleTypes.Proofs.Stages

/-!
# What is read and what is done

A command line only looks at what it says that it needs, so it comes to the same actions whatever
else there is to be read. On files that are a value, a run is therefore its answer, found with all
files at hand, and then delivered: printed, or written to a file.

## Main definitions

* `Command.Sources.Agree` — two sources give the same where something needs to be read

## Main results

* `Command.plan_congr` — a plan depends on nothing but what is needed
* `Command.run_eq_perform` — a run on files is the plan that is made with all of them, performed
* `Command.run_eq_deliver`, `Command.run_eq_failure`, `Command.run_of_usage` — what becomes of an
  answer, of a failure to answer, and of arguments that ask for nothing
-/

namespace SampleTypes.Command

/-! ## What is needed -/

/-- Two sources give the same where something needs to be read. -/
structure Sources.Agree (needs : Needs) (one other : Sources) : Prop where
  files : ∀ path ∈ needs.files, one.read path = other.read path
  standardInput : needs.standardInput = true → one.standardInput = other.standardInput

section

variable {one other : Sources}

/-- The document of a request is needed. -/
theorem Request.bytes_congr {request : Request} (h : Sources.Agree request.needs one other) :
    one.bytes request.options.input = other.bytes request.options.input := by
  cases input : request.options.input with
  | none => exact congrArg Except.ok (h.standardInput (by simp [Request.needs, input]))
  | some path =>
    have same := h.files path (by simp [Request.needs, input])
    simp only [Sources.bytes, same]

/-- The settings are needed where no name is given. -/
theorem Request.typeName_congr {options : Options}
    (h : Sources.Agree (Request.needs ⟨.render, options⟩) one other) :
    one.typeName options = other.typeName options := by
  cases name : options.name with
  | some name => simp only [Sources.typeName, name]
  | none =>
    have needed : Settings.path { names := [] } options.config ∈
        (Request.needs ⟨.render, options⟩).files := by
      simp [Request.needs, name]
    have same := h.files _ needed
    simp only [Sources.typeName, name, Sources.settings, Settings.atPath, same]

theorem Request.answer_congr {request : Request} (h : Sources.Agree request.needs one other) :
    request.answer one = request.answer other := by
  have document : one.document request.options.input = other.document request.options.input := by
    rw [Sources.document, bytes_congr h, Sources.document]
  have answerText : request.answerText one = request.answerText other := by
    obtain ⟨verb, options⟩ := request
    cases verb with
    | infer => simp only [Request.answerText, document]
    | render => simp only [Request.answerText, document, typeName_congr h]
  rw [Request.answer, answerText, Request.answer]

/-- What a command line comes to depends on nothing but what it needs. -/
theorem plan_congr {arguments : List Text} (h : Sources.Agree (needs arguments) one other) :
    plan arguments one = plan arguments other := by
  cases line : CommandLine.ofArguments arguments with
  | error error => simp only [plan, line, mapError_error, bind, Except.bind]
  | ok made =>
    have answer : made.answer one = made.answer other := by
      cases made with
      | help verb => rfl
      | request request =>
        rw [needs, line] at h
        exact Request.answer_congr h
    simp only [plan, line, mapError_ok, bind, Except.bind, answer]

end

/-! ## What is found -/

/-- Of some sources, what is needed and nothing else. -/
def Sources.only (sources : Sources) (needs : Needs) : Sources :=
  .ofFound (needs.files.map fun path => (path, sources.read path))
    (if needs.standardInput then sources.standardInput else [])

theorem lookup_graph {α β : Type} [BEq α] [LawfulBEq α] (f : α → β) {a : α} {as : List α}
    (h : a ∈ as) : (as.map fun a => (a, f a)).lookup a = some (f a) := by
  induction as with
  | nil => cases h
  | cons first as ih =>
    rw [List.map_cons, List.lookup_cons]
    by_cases here : a = first
    · simp [here]
    · rw [beq_eq_false_iff_ne.2 here]
      exact ih ((List.mem_cons.1 h).resolve_left here)

theorem Sources.agree_only (sources : Sources) (needs : Needs) :
    Agree needs (sources.only needs) sources where
  files _ h := congrArg (Option.getD · _) (lookup_graph sources.read h)
  standardInput h := if_pos h

/-! ## Runs on files -/

theorem bind_apply {σ α β : Type} (x : StateM σ α) (f : α → StateM σ β) (s : σ) :
    (x >>= f) s = f (x s).1 (x s).2 := rfl

section

variable (files : Files) (printed : Text) (standardInput : List UInt8)

/-- Reading files one after another changes nothing. -/
theorem mapM_read (paths : List FilePath) :
    (paths.mapM (m := StateM (Files × Text)) fun path =>
      return (path, ← (Host.ofFiles standardInput).read path)) (files, printed) =
        (paths.map fun path => (path, files.read path), files, printed) := by
  induction paths with
  | nil => rfl
  | cons path paths ih =>
    have first : (do return (path, ← (Host.ofFiles standardInput).read path) :
        StateM (Files × Text) (FilePath × _)) (files, printed) =
          ((path, files.read path), files, printed) := rfl
    rw [List.mapM_cons, bind_apply, first, bind_apply, ih]
    rfl

theorem gather_ofFiles (needs : Needs) :
    (Host.ofFiles standardInput).gather needs (files, printed) =
      (Sources.only { read := files.read, standardInput } needs, files, printed) := by
  rw [Host.gather, bind_apply, mapM_read, Sources.only]
  cases needs.standardInput <;> rfl

/-- A run on files is what its plan comes to, made with all of them at hand. -/
theorem run_eq_perform (arguments : List Text) :
    run files arguments standardInput =
      perform files (plan arguments { read := files.read, standardInput }) := by
  rw [run, Outcome.of, Host.run, bind_apply, gather_ofFiles,
    plan_congr (Sources.agree_only _ (needs arguments))]
  rfl

/-! ## Actions -/

@[simp] theorem perform_nil : perform files [] = { files } := rfl

@[simp] theorem perform_fail (failure : Failure) (rest : List Action) :
    perform files (.fail failure :: rest) = { files, failure := some failure } := rfl

@[simp] theorem perform_makeDirectories (path : FilePath) (rest : List Action) :
    perform files (.makeDirectories path :: rest) =
      match files.makeDirectories path with
      | (made, some error) => { files := made, failure := some (.inaccessible error) }
      | (made, none) => perform made rest := by
  simp only [perform, Outcome.of, takeEach, bind_apply, Action.take]
  cases files.makeDirectories path with
  | mk after error => cases error <;> rfl

@[simp] theorem perform_write (path : FilePath) (bytes : List UInt8) (rest : List Action) :
    perform files (.write path bytes :: rest) =
      match files.write path bytes with
      | .ok after => perform after rest
      | .error error => { files, failure := some (.inaccessible error) } := by
  simp only [perform, Outcome.of, takeEach, bind_apply, Action.take]
  cases files.write path bytes <;> rfl

/-- A text that is printed has bytes. -/
theorem print_eq (t : Text) :
    print files t =
      match Utf8.encode (printedText t) with
      | .ok _ => { files, printed := printedText t }
      | .error fault => { files, failure := some (.unencodable fault) } := by
  rw [print, printing]
  cases Utf8.encode (printedText t) <;> rfl

/-! ## Answers -/

variable {files standardInput} {arguments : List Text}

/-- An answer is delivered. -/
theorem run_eq_deliver {line : CommandLine} {answer : Answer}
    (read : CommandLine.ofArguments arguments = .ok line)
    (answered : line.answer { read := files.read, standardInput } = .ok answer) :
    run files arguments standardInput = answer.deliver files := by
  rw [run_eq_perform, plan, read]
  simp only [mapError_ok, bind, Except.bind, answered, Answer.deliver]

/-- Where there is no answer, it is told why, and nothing else is done. -/
theorem run_eq_failure {line : CommandLine} {failure : Failure}
    (read : CommandLine.ofArguments arguments = .ok line)
    (refused : line.answer { read := files.read, standardInput } = .error failure) :
    run files arguments standardInput = { files, failure := some failure } := by
  rw [run_eq_perform, plan, read]
  simp only [mapError_ok, bind, Except.bind, refused, perform_fail]

/-- Arguments that make no command line are not answered. -/
theorem run_of_usage {error : UsageError}
    (read : CommandLine.ofArguments arguments = .error error) :
    run files arguments standardInput = { files, failure := some (.usage error) } := by
  rw [run_eq_perform, plan, read]
  rfl

end

end SampleTypes.Command
