import SampleTypes.Hash.Sha256
import SampleTypes.Json.Writer
import SampleTypes.Refusal

/-!
# Canonical form

The canonical form of a sample is a JSON value that does not depend on the order of keys: keys
are replaced by their texts, of keys with the same text the last one counts, and the members of
every object are in the order of their names. Lists and tuples become arrays. The digest of a
JSON value is the SHA-256 of the compact text of its canonical form.

## Main definitions

* `Sample.canonical` — the canonical form, or a refusal of the first value that has none
* `Sample.encode` — its compact text
* `Json.digest`, `Sample.digest` — the digest, in hexadecimal
-/

namespace SampleTypes

/-- The hexadecimal digits of bytes. -/
def hexadecimal (bytes : List UInt8) : Text := bytes.flatMap fun b => Utf8.hex 2 b.toNat

/-- The values of named outcomes, or the first refusal among them. -/
def settle {ε α : Type} : List (Text × Except ε α) → Except ε (List (Text × α))
  | [] => .ok []
  | (name, outcome) :: rest => do
    let a ← outcome
    let settled ← settle rest
    return (name, a) :: settled

namespace Sample

mutual

/-- The canonical form. The members of a mapping are visited in the order of their names, and
those that a later key overrides are not visited. -/
def canonical : Sample → Except Refusal Json
  | .null => .ok .null
  | .bool b => .ok (.bool b)
  | .text _ t => .ok (.text t)
  | .int _ n => .ok (.int n)
  | .float _ x => .ok (.float x)
  | .sequence .run n _ => .error (.foreign n.typeName)
  | .sequence _ _ items => (canonicalItems items).map .array
  | .mapping _ _ entries =>
    -- Outcomes are sorted before they are settled: the first refusal is that of the first name.
    (settle (Entries.sort (Entries.ofPairs (canonicalEntries entries)))).map .object
  | .set n => .error (.unordered n.typeName)
  | .undefined => .error (.foreign undefined.typeName)
  | .number n => .error (.foreign n.typeName)
  | .date n => .error (.foreign n.typeName)
  | .other n => .error (.foreign n.typeName)
termination_by structural s => s

/-- The canonical forms of the items. -/
def canonicalItems : List Sample → Except Refusal (List Json)
  | [] => .ok []
  | s :: rest => do
    let j ← canonical s
    let js ← canonicalItems rest
    return j :: js
termination_by structural ss => ss

/-- The texts of the keys, and what canonical forms their values have. -/
def canonicalEntries : List (Sample × Sample) → List (Text × Except Refusal Json)
  | [] => []
  | (key, s) :: rest => (key.shown, canonical s) :: canonicalEntries rest
termination_by structural es => es

end

/-- The compact text of the canonical form. -/
def encode (s : Sample) : Except Refusal Text := s.canonical.map Json.compact

end Sample

/-- The digest of the canonical form of a JSON value. -/
def Json.digest (j : Json) : Except Utf8.Unencodable Text :=
  (Utf8.encode j.sorted.compact).map fun bytes => hexadecimal (Sha256.digest bytes)

/-- Why a sample has no digest. -/
inductive DigestError where
  | refused (refusal : Refusal)
  | unencodable (fault : Utf8.Unencodable)
  deriving Repr

/-- The digest of the canonical form of a sample. -/
def Sample.digest (s : Sample) : Except DigestError Text :=
  match s.encode with
  | .error refusal => .error (.refused refusal)
  | .ok t =>
    match Utf8.encode t with
    | .error fault => .error (.unencodable fault)
    | .ok bytes => .ok (hexadecimal (Sha256.digest bytes))

end SampleTypes
