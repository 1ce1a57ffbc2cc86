import SampleTypes.Declaration

/-!
# Envelopes

The records that the command reads and writes: the answer of an inference, the request for a
declaration, and the answer to it. A record is checked field by field, in the order of its
fields, and all faults are reported; entries that are no fields are dropped.

## Main definitions

* `Envelope.Model`, `Envelope.Fault` — kinds of record, and faults with their place
* `Envelope.Model.check` — the fields of a record, or its faults
* `Envelope.inferResponse`, `Envelope.renderRequest`, `Envelope.renderResponse` — the records
* `Envelope.ofInference`, `Envelope.readInference` — writing and reading the answer of an inference
* `Envelope.ofDeclaration` — writing the answer to a request for a declaration
-/

namespace SampleTypes.Envelope

/-- A step to the place of a fault. -/
inductive Locus where
  | name (t : Text)
  | index (n : Int)
  deriving DecidableEq, Repr

/-- What is wrong at a place. -/
inductive Problem where
  /-- There is no such field. -/
  | missing
  | notText
  /-- A text of a type of its own holds surrogates. -/
  | notUnicode
  | notMapping
  /-- The whole is no record of this kind. -/
  | notModel (name : Text)
  deriving DecidableEq, Repr

/-- The message of a problem. -/
def Problem.message : Problem → Text
  | .missing => Text.ofString "Field required"
  | .notText => Text.ofString "Input should be a valid string"
  | .notUnicode =>
    Text.ofString "Input should be a valid string, unable to parse raw data as a unicode string"
  | .notMapping => Text.ofString "Input should be a valid dictionary"
  | .notModel name => Text.ofString "Input should be a valid dictionary or instance of " ++ name

/-- A problem and the way to its place. -/
structure Fault where
  place : List Locus
  problem : Problem
  deriving DecidableEq, Repr

/-- What a field may hold. -/
inductive Content where
  | anything
  | text
  /-- A mapping whose keys are texts. -/
  | record
  deriving DecidableEq, Repr

/-- A field of a record. A field with a default may be missing. -/
structure Field where
  name : Text
  content : Content
  default : Option Sample := none
  deriving Repr

/-- A kind of record. -/
structure Model where
  name : Text
  fields : List Field
  deriving Repr

/-! ## Plain copies -/

mutual

/-- A copy in which lists, tuples and dictionaries are plain ones. -/
def plain : Sample → Sample
  | .sequence .list _ items => Sample.list (plainItems items)
  | .sequence .tuple _ items => Sample.tuple (plainItems items)
  | .mapping .dict _ entries => .mapping .dict (Nature.named "dict") (plainEntries entries)
  | .sequence .run n items => .sequence .run n items
  | .mapping .view n entries => .mapping .view n entries
  | .undefined => .undefined
  | .null => .null
  | .bool b => .bool b
  | .text n t => .text n t
  | .int n i => .int n i
  | .float n x => .float n x
  | .number n => .number n
  | .date n => .date n
  | .set n => .set n
  | .other n => .other n
termination_by structural s => s

/-- Plain copies of items. -/
def plainItems : List Sample → List Sample
  | [] => []
  | s :: rest => plain s :: plainItems rest
termination_by structural ss => ss

/-- Plain copies of the values of entries. -/
def plainEntries : List (Sample × Sample) → List (Sample × Sample)
  | [] => []
  | (key, s) :: rest => (key, plain s) :: plainEntries rest
termination_by structural es => es

end

/-! ## Checking -/

/-- The text that a record takes a value for. A plain text is taken as it is, whatever it holds;
one of a type of its own may hold no surrogates. -/
def recordText (s : Sample) : Except Problem Text :=
  match s, s.nature.asText with
  | .text n t, _ =>
    if n = Nature.named "str" ∨ !t.any CodePoint.isSurrogate then .ok t else .error .notUnicode
  | _, some t => .ok t
  | _, none => .error .notText

/-- A text with every surrogate replaced by the mark for what cannot be read, once for each of its
three bytes. -/
def legible (t : Text) : Text :=
  t.flatMap fun c => if c.isSurrogate then List.replicate 3 (ofChar '\uFFFD') else [c]

/-- The place of a key: its text, its number if that fits a machine word, or how it prints. -/
def Locus.ofKey : Sample → Locus
  | .text _ t => .name (legible t)
  | .bool b => .index (if b then 1 else 0)
  | .int n i =>
    if -0x8000000000000000 ≤ i ∧ i < 0x8000000000000000 then .index i
    else .name (Sample.int n i).quoted
  | key => .name key.quoted

/-- The faults of the keys of a record in a field. -/
def keyFaults (field : Text) (entries : List (Sample × Sample)) : List Fault :=
  entries.filterMap fun e =>
    match recordText e.1 with
    | .ok _ => none
    | .error problem => some ⟨[.name field, .ofKey e.1, .name (Text.ofString "[key]")], problem⟩

/-- The entries of a record with plain keys, of which equal ones are merged. -/
def plainKeys (entries : List (Sample × Sample)) : List (Sample × Sample) :=
  -- Keys that are no texts have been reported as faults before.
  let named := entries.filterMap fun e => (recordText e.1).toOption.map fun t => (t, plain e.2)
  (Entries.ofPairs named).map fun e => (Sample.ofText e.1, e.2)

/-- What a field holds, or its faults. -/
def Field.check (f : Field) (s : Sample) : Except (List Fault) Sample :=
  match f.content, s with
  | .anything, s => .ok (plain s)
  | .text, s =>
    match recordText s with
    | .ok t => .ok (Sample.ofText t)
    | .error problem => .error [⟨[.name f.name], problem⟩]
  | .record, .mapping _ _ entries =>
    match keyFaults f.name entries with
    | [] => .ok (.mapping .dict (Nature.named "dict") (plainKeys entries))
    | faults => .error faults
  | .record, _ => .error [⟨[.name f.name], .notMapping⟩]

/-- A field of a record with the given entries, or its faults. -/
def Field.take (f : Field) (entries : List (Sample × Sample)) : Except (List Fault) Sample :=
  match Sample.lookup? f.name entries, f.default with
  | some s, _ => f.check s
  | none, some s => .ok s
  | none, none => .error [⟨[.name f.name], .missing⟩]

/-- All fields of a record, or all their faults. -/
def checkFields (entries : List (Sample × Sample)) :
    List Field → Except (List Fault) (Entries Sample)
  | [] => .ok []
  | f :: rest =>
    match f.take entries, checkFields entries rest with
    | .ok s, .ok taken => .ok ((f.name, s) :: taken)
    | .ok _, .error faults => .error faults
    | .error faults, .ok _ => .error faults
    | .error faults, .error more => .error (faults ++ more)

/-- The fields of a record, or its faults. -/
def Model.check (m : Model) : Sample → Except (List Fault) (Entries Sample)
  | .mapping _ _ entries => checkFields entries m.fields
  | _ => .error [⟨[], .notModel m.name⟩]

/-- The faults of a record; there are none if it has all its fields. -/
def Model.faults (m : Model) (s : Sample) : List Fault :=
  match m.check s with
  | .ok _ => []
  | .error faults => faults

/-! ## The records -/

/-- The field with a descriptor. -/
def descriptorField : Text := Text.ofString "descriptor"

/-- The field with the digest of the descriptor. -/
def digestField : Text := Text.ofString "digest"

/-- The field with the name of a type. -/
def typeNameField : Text := Text.ofString "type_name"

/-- The field with a declaration. -/
def declarationField : Text := Text.ofString "declaration"

/-- The answer of an inference: a descriptor and its digest. -/
def inferResponse : Model where
  name := Text.ofString "InferResponseDTO"
  fields := [⟨descriptorField, .anything, none⟩, ⟨digestField, .text, none⟩]

/-- The request for a declaration: a mapping, and the name of its type. -/
def renderRequest : Model where
  name := Text.ofString "RenderRequestDTO"
  fields :=
    [⟨Text.ofString "value", .record, none⟩,
      ⟨typeNameField, .text, some (Sample.ofText Declaration.defaultName)⟩]

/-- The answer to it: the name of the type and the declaration. -/
def renderResponse : Model where
  name := Text.ofString "RenderResponseDTO"
  fields := [⟨typeNameField, .text, none⟩, ⟨declarationField, .text, none⟩]

/-- The answer of an inference. -/
def ofInference (descriptor : Json) (digest : Text) : Json :=
  .object [(descriptorField, descriptor), (digestField, .text digest)]

/-- The descriptor and the digest in an answer of an inference, or the faults of the document. -/
def readInference (document : Json) : Except (List Fault) (Json × Text) :=
  match document.member? descriptorField, document.member? digestField with
  | some descriptor, some (.text digest) => .ok (descriptor, digest)
  | _, _ => .error (inferResponse.faults (Sample.ofJson document))

/-- The answer to a request for a declaration. -/
def ofDeclaration (name declaration : Text) : Json :=
  .object [(typeNameField, .text name), (declarationField, .text declaration)]

end SampleTypes.Envelope
