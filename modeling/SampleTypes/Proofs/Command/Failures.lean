import SampleTypes.Proofs.Command.Printing
import SampleTypes.Proofs.Command.RoundTrip
import SampleTypes.Proofs.Declaration.Names

/-!
# Failures that are unforeseen

Of a document that has a value a type can be inferred and printed, and the declaration of a
descriptor in it can be printed or refused for a fault of the descriptor. What is not provided for
is a surrogate. JSON can write one with an escape, and no text that has one in it can be printed or
have a digest. So inference fails for a document that gives a surrogate to its type as part of a
name, and rendering fails for a descriptor with a surrogate in it, before anything else about the
descriptor is looked at, or for such a name of the type.

## Main definitions

* `Command.Unforeseen` — the documents and requests for which a command fails in such a way
* `Command.AnswersOrFails` — what a command comes to before anything is printed

## Main results

* `Command.declareDescriptor_cases` — a descriptor without surrogates is declared or refused
* `Command.run_unforeseen` — a run prints its answer, or refuses the descriptor, or fails in such a
  way
-/

namespace SampleTypes.Command

/-- A command fails, for a document that has a value, in a way that it does not provide for. -/
inductive Unforeseen (sources : Sources) (options : Options) (document : Json) : Verb → Prop
  /-- The type of the document has a surrogate in a name. -/
  | type {d : Descriptor} (inferred : infer (Sample.ofJson document) = .ok d)
      (surrogate : ¬ Outline.EncodableNames d) : Unforeseen sources options document .infer
  /-- The settings that the name of the type is to be taken from cannot be used. -/
  | settings {failure : Failure} (named : sources.typeName options = .error failure) :
      Unforeseen sources options document .render
  /-- The descriptor has a surrogate in it. -/
  | payload {payload : Json} {digest : Text}
      (read : Envelope.readInference document = .ok (payload, digest))
      (surrogate : ¬ payload.Encodable) : Unforeseen sources options document .render
  /-- The name of the type, which is to be printed, has a surrogate in it. -/
  | name {name declaration : Text} (named : sources.typeName options = .ok name)
      (declared : declareDescriptor name document = .ok declaration)
      (plain : options.json = false) (surrogate : ¬ name.Encodable) :
      Unforeseen sources options document .render

variable {sources : Sources} {options : Options} {document : Json} {name : Text}

/-! ## Inference -/

/-- Every document has an answer, unless a surrogate in a name keeps its type from having a
digest. -/
theorem inferAnswer_cases (document : Json) :
    ∃ d, infer (Sample.ofJson document) = .ok d ∧
      ((Outline.EncodableNames d ∧ ∃ t, inferAnswer document = .ok t ∧ t.Encodable) ∨
        (¬ Outline.EncodableNames d ∧
          ∃ fault, inferAnswer document = .error (.unencodable fault))) := by
  obtain ⟨d, inferred, -⟩ := exists_infer_ofJson document
  have answer : inferAnswer document = (d.toJson.digest.mapError Failure.unencodable).map
      fun digest => (Envelope.ofInference d.toJson digest).indented := by
    rw [inferAnswer, inferred]
    simp only [mapError_ok, bind, Except.bind]
    cases d.toJson.digest <;> rfl
  have names := Descriptor.encodable_toJson_iff (infer_distinct inferred)
  refine ⟨d, inferred, ?_⟩
  rw [answer, ← names, ← Json.exists_digest_iff]
  cases taken : d.toJson.digest with
  | ok digest =>
    exact .inl ⟨⟨digest, rfl⟩, _, rfl, (Json.ascii_indented _).isSurrogate_eq⟩
  | error fault =>
    refine .inr ⟨?_, fault, rfl⟩
    rintro ⟨digest, h⟩
    cases h

/-! ## Rendering -/

theorem toClass_of_typeName_error {failure : Failure}
    (h : sources.typeName options = .error failure) : failure.toClass = .unforeseen := by
  rw [Sources.typeName] at h
  split at h
  · cases h
  · rw [Sources.settings] at h
    cases held : Settings.atPath sources.read (Settings.path ⟨.here, []⟩ options.config) with
    | ok settings =>
      simp only [held] at h
      cases h
    | error fault =>
      simp only [held] at h
      cases fault <;> cases h <;> rfl

/-- A descriptor with a surrogate in it has no digest that could be compared. -/
theorem declareDescriptor_of_surrogate {payload : Json} {digest : Text}
    (read : Envelope.readInference document = .ok (payload, digest))
    (surrogate : ¬ payload.Encodable) (name : Text) :
    ∃ fault, declareDescriptor name document = .error (.unencodable fault) := by
  cases taken : payload.digest with
  | ok own => exact absurd (Json.exists_digest_iff.1 ⟨own, taken⟩) surrogate
  | error fault =>
    refine ⟨fault, ?_⟩
    rw [declareDescriptor, read]
    simp only [mapError_ok, bind, Except.bind, taken]
    rfl

/-- Any other descriptor is declared or refused for a fault of it. What is declared has surrogates
only in the name of the type. -/
theorem declareDescriptor_cases
    (plain : ∀ payload digest, Envelope.readInference document = .ok (payload, digest) →
      payload.Encodable) (name : Text) :
    (∃ declaration, declareDescriptor name document = .ok declaration ∧
        (declaration.Encodable ↔ name.Encodable)) ∨
      ∃ failure, declareDescriptor name document = .error failure ∧
        failure.toClass ≠ .unforeseen := by
  cases read : Envelope.readInference document with
  | error faults =>
    have refused : declareDescriptor name document = .error (.invalidDescriptor faults) := by
      rw [declareDescriptor, read]
      rfl
    exact .inr ⟨_, refused, fun unforeseen => by cases unforeseen⟩
  | ok found =>
    obtain ⟨payload, digest⟩ := found
    have plain : payload.Encodable := plain payload digest read
    obtain ⟨own, taken⟩ := plain.exists_digest
    rw [declareDescriptor_of_readInference read taken]
    split_ifs with same
    · cases readType : Descriptor.ofSample (Sample.ofJson payload) with
      | error fault => exact .inr ⟨.format fault, rfl, fun unforeseen => by cases unforeseen⟩
      | ok d =>
        have names := Descriptor.encodableNames_of_ofSample plain readType
        refine .inl ⟨_, rfl, ?_⟩
        rw [Descriptor.encodable_declare_iff, and_iff_left names]
    · exact .inr ⟨.digestMismatch, rfl, fun unforeseen => by cases unforeseen⟩

/-! ## Answers -/

/-- A command answers, and the answer has a surrogate in it just in an unforeseen case. Or it fails,
and the failure is unforeseen just in such a case; an inference fails in no other. -/
inductive AnswersOrFails (sources : Sources) (options : Options) (document : Json) (verb : Verb) :
    Prop
  | answers {t : Text} (answer : Request.answerText ⟨verb, options⟩ sources = .ok t)
      (plain : t.Encodable ↔ ¬ Unforeseen sources options document verb)
  | fails {failure : Failure} (answer : Request.answerText ⟨verb, options⟩ sources = .error failure)
      (unforeseen : failure.toClass = .unforeseen ↔ Unforeseen sources options document verb)
      (render : failure.toClass ≠ .unforeseen → verb = .render)

theorem infer_answersOrFails (loaded : sources.document options.input = .ok document) :
    AnswersOrFails sources options document .infer := by
  have answer : Request.answerText ⟨.infer, options⟩ sources = inferAnswer document := by
    rw [answerText_infer, loaded]
    rfl
  obtain ⟨d, inferred, ⟨names, t, answered, plain⟩ | ⟨names, fault, failed⟩⟩ :=
    inferAnswer_cases document
  · refine .answers (answer.trans answered) (iff_of_true plain ?_)
    rintro ⟨inferred', surrogate⟩
    rw [inferred] at inferred'
    cases inferred'
    exact surrogate names
  · exact .fails (answer.trans failed) (iff_of_true rfl (.type inferred names)) (absurd rfl)

/-- Where the type has a name and the descriptor is without surrogates, only that name is left to
have one in it, and it only matters in a declaration that is not in an envelope. -/
theorem unforeseen_render_iff (named : sources.typeName options = .ok name)
    (plain : ∀ payload digest, Envelope.readInference document = .ok (payload, digest) →
      payload.Encodable) :
    Unforeseen sources options document .render ↔
      options.json = false ∧ ¬ name.Encodable ∧
        ∃ declaration, declareDescriptor name document = .ok declaration := by
  constructor
  · rintro (_ | named' | ⟨read, surrogate⟩ | ⟨named', declared, json, surrogate⟩)
    · rw [named] at named'
      cases named'
    · exact absurd (plain _ _ read) surrogate
    · rw [named] at named'
      cases named'
      exact ⟨json, surrogate, _, declared⟩
  · rintro ⟨json, surrogate, declaration, declared⟩
    exact .name named declared json surrogate

theorem render_answersOrFails_of_plain (loaded : sources.document options.input = .ok document)
    (asked : options.descriptor = true) (named : sources.typeName options = .ok name)
    (plain : ∀ payload digest, Envelope.readInference document = .ok (payload, digest) →
      payload.Encodable) : AnswersOrFails sources options document .render := by
  have answer := answerText_of_typeName named loaded
  have unforeseen_iff := unforeseen_render_iff named plain
  rw [asked, if_pos rfl] at answer
  obtain ⟨declaration, declared, surrogates⟩ | ⟨failure, failed, foreseen⟩ :=
    declareDescriptor_cases plain name
  · rw [declared] at answer
    refine .answers answer ?_
    cases json : options.json with
    | true =>
      refine iff_of_true (Json.ascii_indented _).isSurrogate_eq fun h => ?_
      exact Bool.noConfusion (json.symm.trans (unforeseen_iff.1 h).1)
    | false =>
      have only : Unforeseen sources options document .render ↔ ¬ name.Encodable :=
        unforeseen_iff.trans ⟨fun h => h.2.1, fun h => ⟨json, h, declaration, declared⟩⟩
      rw [only, not_not]
      exact surrogates
  · rw [failed] at answer
    refine .fails answer (iff_of_false foreseen fun h => ?_) fun _ => rfl
    obtain ⟨_, _, declaration, declared⟩ := unforeseen_iff.1 h
    rw [failed] at declared
    cases declared

theorem render_answersOrFails (loaded : sources.document options.input = .ok document)
    (asked : options.descriptor = true) : AnswersOrFails sources options document .render := by
  cases named : sources.typeName options with
  | error failure =>
    have failed : Request.answerText ⟨.render, options⟩ sources = .error failure := by
      simp only [Request.answerText, named, bind, Except.bind]
    have unforeseen := toClass_of_typeName_error named
    exact .fails failed (iff_of_true unforeseen (.settings named)) (absurd unforeseen)
  | ok name =>
    by_cases plain : ∀ payload digest, Envelope.readInference document = .ok (payload, digest) →
        payload.Encodable
    · exact render_answersOrFails_of_plain loaded asked named plain
    · simp only [not_forall] at plain
      obtain ⟨payload, digest, read, surrogate⟩ := plain
      obtain ⟨fault, failed⟩ := declareDescriptor_of_surrogate read surrogate name
      have answer := answerText_of_typeName named loaded
      rw [asked, if_pos rfl, failed] at answer
      exact .fails answer (iff_of_true rfl (.payload read surrogate)) (absurd rfl)

/-! ## Runs -/

section

variable {files : Files} {arguments : List Text} {standardInput : List UInt8} {request : Request}

/-- On a document that has a value, an inference prints its answer, and rendering a descriptor
prints its answer or is refused with a word about what is wrong, unless the failure is one of those
that are not provided for. -/
theorem run_unforeseen
    (line : CommandLine.ofArguments arguments = .ok (.request request))
    (printed : request.options.ToStandardOutput)
    (asked : request.verb = .infer ∨ request.options.descriptor = true)
    (loaded : Sources.document { read := files.read, standardInput } request.options.input =
      .ok document) :
    (Unforeseen { read := files.read, standardInput } request.options document request.verb →
      ∃ failure, run files arguments standardInput = { files, failure := some failure } ∧
        failure.toClass = .unforeseen) ∧
    (¬ Unforeseen { read := files.read, standardInput } request.options document request.verb →
      (∃ t, request.answerText { read := files.read, standardInput } = .ok t ∧
        run files arguments standardInput = { files, printed := printedText t }) ∨
      request.verb = .render ∧
        ∃ failure, run files arguments standardInput = { files, failure := some failure } ∧
          failure.toClass ≠ .unforeseen) := by
  rw [run_of_toStandardOutput line printed]
  obtain ⟨verb, options⟩ := request
  have cases : AnswersOrFails { read := files.read, standardInput } options document verb := by
    cases verb with
    | infer => exact infer_answersOrFails loaded
    | render => exact render_answersOrFails loaded (asked.resolve_left nofun)
  obtain ⟨answer, plain⟩ | ⟨answer, unforeseen, render⟩ := cases
  · rw [answer]
    refine ⟨fun h => ?_, fun h => ?_⟩
    · obtain ⟨fault, failed⟩ := print_of_not_encodable files fun p => plain.1 p h
      exact ⟨_, failed, rfl⟩
    · exact .inl ⟨_, rfl, print_of_encodable files (plain.2 h)⟩
  · rw [answer]
    refine ⟨fun h => ⟨_, rfl, unforeseen.2 h⟩, fun h => .inr ?_⟩
    have foreseen := fun f => h (unforeseen.1 f)
    exact ⟨render foreseen, _, rfl, foreseen⟩

end

/-- The empty object has a type without names, so its inference is printed. -/
theorem run_infer_of_empty_object :
    let bytes := (Text.ofString "\x7b\x7d").flatMap Utf8.encodeOne
    ∃ t, Request.answerText ⟨.infer, {}⟩ { read := Files.read {}, standardInput := bytes } = .ok t ∧
      run {} [Text.ofString "infer"] bytes = { files := {}, printed := printedText t } := by
  intro bytes
  have loaded : Sources.document { read := Files.read {}, standardInput := bytes } none =
      .ok (.object []) := rfl
  have inferred : infer (Sample.ofJson (.object [])) = .ok Descriptor.emptyObject := rfl
  have foreseen : ¬ Unforeseen { read := Files.read {}, standardInput := bytes } {} (.object [])
      .infer := by
    rintro ⟨inferred', surrogate⟩
    rw [inferred] at inferred'
    cases inferred'
    exact surrogate nofun
  have line : CommandLine.ofArguments [Text.ofString "infer"] = .ok (.request ⟨.infer, {}⟩) := rfl
  obtain answered | ⟨render, -⟩ := (run_unforeseen line nofun (.inl rfl) loaded).2 foreseen
  · exact answered
  · cases render

/-- A document with a lone surrogate in the name of a member: no inference is printed for it. -/
theorem run_infer_of_surrogate :
    let bytes := (Text.ofString "\x7b\"\\ud800\": 1\x7d").flatMap Utf8.encodeOne
    let failure := Failure.unencodable ⟨2, [CodePoint.ofNat 0xD800]⟩
    (loadJson bytes).toBool = true ∧ failure.toClass = .unforeseen ∧
      run {} [Text.ofString "infer"] bytes = { files := {}, failure := some failure } := by
  decide +kernel

end SampleTypes.Command
