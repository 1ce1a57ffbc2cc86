import SampleTypes.Proofs.Command.Lines
import SampleTypes.Proofs.Descriptor.Json
import SampleTypes.Proofs.Descriptor.Shape
import SampleTypes.Proofs.Inference.Types
import SampleTypes.Proofs.Json.Digest

/-!
# The answer of an inference as a document

What an inference prints is a document of which the declaration of the inferred type can be asked
for: it is read back as the envelope that was written, its digest is right, and its descriptor is
the inferred one. So declaring a document in two steps comes to the same as declaring it in one.

## Main results

* `Command.loadJson_printed` — a printed JSON value is read back
* `Command.declareDescriptor_of_readInference` — what is checked, and what is done then
* `Command.declareDescriptor_ofInference` — the envelope of an inference is accepted
* `Command.render_of_infer` — what is printed for what was printed
-/

namespace SampleTypes.Command

/-- A printed JSON value is read back. -/
theorem loadJson_printed {j : Json} (h : Json.Kept true j) :
    ∃ bytes, Utf8.encode (printedText j.indented) = .ok bytes ∧ loadJson bytes = .ok j := by
  -- The printed text is ASCII: the terminal takes nothing out, and its bytes are decoded to it.
  have ascii := Json.ascii_indented j
  have printed : printedText j.indented = j.indented ++ [ofChar '\n'] := by
    rw [printedText, ascii.stripControls_eq]
  have line : Text.Ascii (j.indented ++ [ofChar '\n']) := Text.ascii_append.2 ⟨ascii, by decide⟩
  obtain ⟨bytes, encoded, document⟩ := line.ofDocument_eq
  have spelled : Json.Spelled j (j.indented ++ [ofChar '\n']) :=
    (Json.spelled_indentedAt h 0).padded Json.Blanks.nil (by simp [Json.Blanks, Json.isBlank])
  refine ⟨bytes, printed ▸ encoded, ?_⟩
  rw [loadJson, document]
  simp only [mapError_ok, bind, Except.bind, spelled.read_eq]

/-! ## The envelope of an inference -/

theorem inferAnswer_eq_ok {document : Json} {t : Text} (h : inferAnswer document = .ok t) :
    ∃ d digest, infer (Sample.ofJson document) = .ok d ∧
      (Descriptor.toJson d).digest = .ok digest ∧
      t = (Envelope.ofInference (Descriptor.toJson d) digest).indented := by
  rw [inferAnswer] at h
  cases inferred : infer (Sample.ofJson document) with
  | error e => rw [inferred] at h; cases h
  | ok d =>
    cases taken : (Descriptor.toJson d).digest with
    | error e => rw [inferred] at h; simp [bind, Except.bind, taken] at h
    | ok digest =>
      rw [inferred] at h
      simp only [mapError_ok, bind, Except.bind, taken] at h
      cases h
      exact ⟨d, digest, rfl, taken, rfl⟩

/-- A record of two fields is kept if its values are. -/
theorem kept_record {first second : Text} (differ : first ≠ second) (names : first.Encodable)
    (names' : second.Encodable) {j k : Json} (hj : Json.Kept true j) (hk : Json.Kept true k) :
    Json.Kept true (.object [(first, j), (second, k)]) := by
  have nodup : [first, second].Nodup := by simpa using differ
  apply Json.Kept.object
  · exact nodup
  · exact List.forall_mem_cons.2 ⟨fun _ => names, List.forall_mem_singleton.2 fun _ => names'⟩
  · exact List.forall_mem_cons.2 ⟨hj, List.forall_mem_singleton.2 hk⟩

theorem kept_ofInference {d : Descriptor} {digest : Text}
    (h : (Descriptor.toJson d).digest = .ok digest) :
    Json.Kept true (Envelope.ofInference (Descriptor.toJson d) digest) := by
  -- A descriptor with a digest names no field with a surrogate in it.
  have kept := (Descriptor.kept_toJson d).of_digest h
  have plain := (Json.ascii_digest h).isSurrogate_eq
  exact kept_record (by decide) (by decide) (by decide) kept (.text fun _ => plain)

theorem readInference_ofInference (descriptor : Json) (digest : Text) :
    Envelope.readInference (Envelope.ofInference descriptor digest) = .ok (descriptor, digest) :=
  rfl

/-- The digest beside a descriptor is compared with its own, and only then is the descriptor
read. -/
theorem declareDescriptor_of_readInference {document payload : Json} {digest own : Text}
    (read : Envelope.readInference document = .ok (payload, digest))
    (taken : payload.digest = .ok own) (name : Text) :
    declareDescriptor name document =
      if own = digest then
        ((Descriptor.ofSample (Sample.ofJson payload)).map fun d => d.declare name).mapError .format
      else .error .digestMismatch := by
  rw [declareDescriptor, read]
  simp only [mapError_ok, bind, Except.bind, taken]
  by_cases same : own = digest
  · simp only [same, ne_eq, not_true_eq_false, if_false, if_true]
    cases Descriptor.ofSample (Sample.ofJson payload) <;> rfl
  · simp only [same, ne_eq, not_false_eq_true, if_true, if_false]
    rfl

/-- The envelope of an inference is accepted, and its descriptor is declared. -/
theorem declareDescriptor_ofInference {d : Descriptor} (distinct : Outline.Distinct d)
    {digest : Text} (h : (Descriptor.toJson d).digest = .ok digest) (name : Text) :
    declareDescriptor name (Envelope.ofInference (Descriptor.toJson d) digest) =
      .ok (d.declare name) := by
  rw [declareDescriptor_of_readInference (readInference_ofInference _ digest) h, if_pos rfl,
    Descriptor.ofSample_toJson_of_distinct distinct]
  rfl

/-! ## In two steps and in one -/

theorem answerText_infer (options : Options) (sources : Sources) :
    Request.answerText ⟨.infer, options⟩ sources =
      sources.document options.input >>= inferAnswer := rfl

/-- A declaration under a given name, in plain text. -/
theorem answerText_render {options : Options} {name : Text} (hname : options.name = some name)
    (plain : options.json = false) (sources : Sources) :
    Request.answerText ⟨.render, options⟩ sources =
      sources.document options.input >>= fun document =>
        if options.descriptor then declareDescriptor name document
        else declareDocument name document := by
  simp only [Request.answerText, Sources.typeName, hname, plain, bind, Except.bind]
  cases sources.document options.input with
  | error e => rfl
  | ok document =>
    simp only
    cases options.descriptor with
    | true => cases declareDescriptor name document <;> rfl
    | false => cases declareDocument name document <;> rfl

/-- What an inference that succeeds has found and printed. -/
theorem exists_of_run_infer {files : Files} {input : Option Text} {standardInput : List UInt8}
    (succeeds : (run files (inferLine input) standardInput).failure = none) :
    input.bind PathFault.of? = none ∧ ∃ value d digest,
      documentAt files input standardInput = .ok value ∧
      infer (Sample.ofJson value) = .ok d ∧ (Descriptor.toJson d).digest = .ok digest ∧
      run files (inferLine input) standardInput =
        print files (Envelope.ofInference (Descriptor.toJson d) digest).indented := by
  have line := ofArguments_inferLine input
  cases fault : input.bind PathFault.of? with
  | some fault' =>
    rw [fault] at line
    rw [run_of_usage line] at succeeds
    cases succeeds
  | none =>
    rw [fault] at line
    obtain ⟨t, answer⟩ := exists_answer_of_run line succeeds
    have printed := run_eq_print line (output_lineOptions input none) answer
    rw [answerText_infer, input_lineOptions, ← documentAt] at answer
    cases found : documentAt files input standardInput with
    | error e => rw [found] at answer; cases answer
    | ok value =>
      rw [found] at answer
      obtain ⟨d, digest, inferred, taken, rfl⟩ := inferAnswer_eq_ok answer
      exact ⟨rfl, value, d, digest, rfl, inferred, taken, printed⟩

/-- An inference that finds a type with a digest succeeds. -/
theorem failure_run_infer {files : Files} {input : Option Text} {standardInput : List UInt8}
    (noFault : input.bind PathFault.of? = none) {value : Json} {d : Descriptor} {digest : Text}
    (found : documentAt files input standardInput = .ok value)
    (inferred : infer (Sample.ofJson value) = .ok d)
    (taken : (Descriptor.toJson d).digest = .ok digest) :
    (run files (inferLine input) standardInput).failure = none := by
  have line := ofArguments_inferLine input
  rw [noFault] at line
  have answer : Request.answerText ⟨.infer, lineOptions input none⟩
      { read := files.read, standardInput } =
        .ok (Envelope.ofInference (Descriptor.toJson d) digest).indented := by
    rw [answerText_infer, input_lineOptions, ← documentAt, found]
    simp only [mapError_ok, bind, Except.bind, inferAnswer, inferred, taken]
    rfl
  obtain ⟨bytes, encoded, _⟩ := loadJson_printed (kept_ofInference taken)
  rw [run_eq_print line (output_lineOptions input none) answer]
  simp only [print_eq, encoded]

/-- What an inference prints can be fed back: its descriptor is accepted, and what is printed is
the declaration of the inferred type. For an object that is also what is printed for the document
itself. -/
theorem render_of_infer (files : Files) (input : Option Text) (standardInput : List UInt8)
    (name : Text) (succeeds : (run files (inferLine input) standardInput).failure = none) :
    ∃ value d bytes,
      documentAt files input standardInput = .ok value ∧
      infer (Sample.ofJson value) = .ok d ∧
      Utf8.encode (run files (inferLine input) standardInput).printed = .ok bytes ∧
      (loadJson bytes >>= declareDescriptor name) = .ok (d.declare name) ∧
      (∀ files', run files' (renderDescriptorLine name) bytes = print files' (d.declare name)) ∧
      ∀ members, value = .object members →
        run files (renderLine name input) standardInput = print files (d.declare name) := by
  -- The digest is never looked into: it is that of the same JSON value on both sides.
  obtain ⟨noFault, value, d, digest, found, inferred, taken, printed⟩ :=
    exists_of_run_infer succeeds
  obtain ⟨bytes, encoded, loaded⟩ := loadJson_printed (kept_ofInference taken)
  have declared := declareDescriptor_ofInference (infer_distinct inferred) taken name
  refine ⟨value, d, bytes, found, inferred, ?_, ?_, fun files' => ?_, ?_⟩
  · simp only [printed, print_eq, encoded]
  · rw [loaded]
    exact declared
  · apply run_eq_print (ofArguments_renderDescriptorLine name) rfl
    rw [answerText_render rfl rfl]
    change (loadJson bytes >>= _) = _
    rw [loaded]
    exact declared
  · rintro members rfl
    have line := ofArguments_renderLine name input
    rw [noFault] at line
    apply run_eq_print line (output_lineOptions input _)
    rw [answerText_render (name_lineOptions input _) rfl, input_lineOptions, ← documentAt, found]
    have direct : (lineOptions input (some name)).descriptor = false := rfl
    simp only [bind, Except.bind, direct, Bool.false_eq_true, if_false]
    rw [declareDocument, Sample.declare, inferred]
    rfl

/-- The bytes of an object that holds an array. -/
def smallDocument : List UInt8 :=
  [0x7B, 0x22, 0x61, 0x22, 0x3A, 0x5B, 0x6E, 0x75, 0x6C, 0x6C, 0x5D, 0x7D]

/-- The small document, declared in two steps and in one. -/
theorem render_of_infer_of_object :
    (run {} (inferLine none) smallDocument).failure = none ∧
      ∃ bytes,
        Utf8.encode (run {} (inferLine none) smallDocument).printed = .ok bytes ∧
        run {} (renderDescriptorLine (Text.ofString "Sample")) bytes =
          run {} (renderLine (Text.ofString "Sample") none) smallDocument := by
  have found : documentAt {} none smallDocument =
      .ok (.object [(Text.ofString "a", .array [.null])]) := rfl
  have inferred : infer (Sample.ofJson (.object [(Text.ofString "a", .array [.null])])) =
      .ok (.object [(Text.ofString "a", .array (.primitive .null))]) := rfl
  have written : (Descriptor.toJson
      (.object [(Text.ofString "a", .array (.primitive .null))])).sorted.compact =
        Text.ofString "\x7b\x22a\x22:[\x22null\x22]\x7d" := by
    have json : Descriptor.toJson (.object [(Text.ofString "a", .array (.primitive .null))]) =
      .object [(Text.ofString "a", .array [.text (Text.ofString "null")])] := rfl
    rw [json, Json.sorted_object]
    simp only [List.map_cons, List.map_nil, Entries.sort, List.mergeSort_singleton]
    rfl
  have ascii : Text.Ascii (Text.ofString "\x7b\x22a\x22:[\x22null\x22]\x7d") := by decide
  obtain ⟨digest, taken⟩ := Json.exists_digest (written ▸ ascii.isSurrogate_eq)
  have succeeds := failure_run_infer rfl found inferred taken
  obtain ⟨value, d, bytes, found', _, encoded, _, declared, direct⟩ :=
    render_of_infer {} none _ (Text.ofString "Sample") succeeds
  rw [found] at found'
  cases found'
  exact ⟨succeeds, bytes, encoded, (declared {}).trans (direct _ rfl).symm⟩

end SampleTypes.Command
