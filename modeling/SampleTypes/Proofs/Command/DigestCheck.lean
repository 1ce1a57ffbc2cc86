import Mathlib.Algebra.Group.Nat.Defs
import SampleTypes.Proofs.Command.RoundTrip
import SampleTypes.Proofs.Descriptor.Codec
import SampleTypes.Proofs.Json.Collision
import SampleTypes.Proofs.Json.Legible

/-!
# The check of the digest

A descriptor is declared only if the digest beside it is its own. What the check lets through is
therefore what was digested, with the members of its objects in any order, and nothing else unless
the hash collides. The answer of an inference may have its members moved, those of the envelope as
well as those of the descriptor, and is still declared.

## Main results

* `Command.declareDescriptor_of_reordered` — the answer of an inference is declared in any order
* `Command.declareDescriptor_passes_iff_reordered` — which changes of a descriptor are let through
-/

namespace SampleTypes.Command

/-- The answer of an inference is declared with its members in any order. -/
theorem declareDescriptor_of_reordered {d : Descriptor} (distinct : Outline.Distinct d)
    {digest : Text} (taken : d.toJson.digest = .ok digest) {document : Json}
    (h : Json.Reordered (Envelope.ofInference d.toJson digest) document) (name : Text) :
    ∃ e : Descriptor, Outline.Reordered d e ∧
      declareDescriptor name document = .ok (e.declare name) := by
  have distinctP := Descriptor.distinct_toJson d
  have envelope : (Envelope.ofInference d.toJson digest).Distinct := by
    have names : [Envelope.descriptorField, Envelope.digestField].Nodup := by decide
    refine .object names ?_
    simp only [List.mem_cons, List.not_mem_nil, or_false, forall_eq_or_imp, forall_eq]
    exact ⟨distinctP, .text _⟩
  -- The two fields are found under their names, wherever they stand.
  have first : (Envelope.ofInference d.toJson digest).member? Envelope.descriptorField =
      some d.toJson := rfl
  have second : (Envelope.ofInference d.toJson digest).member? Envelope.digestField =
      some (.text digest) := rfl
  obtain ⟨payload, payloadFound, reorderedPayload⟩ := h.member? envelope first
  obtain ⟨value, digestFound, reorderedDigest⟩ := h.member? envelope second
  obtain rfl := reorderedDigest.eq_text
  have read : Envelope.readInference document = .ok (payload, digest) := by
    simp only [Envelope.readInference, payloadFound, digestFound]
  obtain ⟨e, reordered, rfl⟩ := Descriptor.exists_toJson_of_reordered distinct reorderedPayload
  rw [reorderedPayload.digest_eq distinctP] at taken
  refine ⟨e, reordered, ?_⟩
  rw [declareDescriptor_of_readInference read taken, if_pos rfl,
    Descriptor.ofSample_toJson_of_distinct (reordered.sorted_eq distinct).2]
  rfl

/-- An envelope with one value and the digest of another passes the check exactly if the values are
reorderings of each other. What passes is read as a descriptor, and what does not is refused for its
digest. So the answer of an inference is accepted with its members in any order, and with no other
change of its descriptor. A digest is only taken of whole numbers that are not too long to be
written; what passes then has no other ones either, so a document can hold it. -/
theorem declareDescriptor_passes_iff_reordered {p q : Json} (distinct : p.Distinct)
    (encodableP : p.Encodable) (encodableQ : q.Encodable) (legible : p.Legible)
    (noCollision : ¬ p.Collides q) (name : Text) :
    ∃ digest, (Sample.ofJson p).digest = .ok digest ∧
      (declareDescriptor name (Envelope.ofInference q digest) ≠ .error .digestMismatch ↔
        Json.Reordered p q) ∧
      (Json.Reordered p q → q.Legible ∧ declareDescriptor name (Envelope.ofInference q digest) =
        ((Descriptor.ofSample (Sample.ofJson q)).map fun d => d.declare name).mapError .format) ∧
      ∀ s d, infer s = .ok d → d.toJson = p →
        ∀ document, Json.Reordered (Envelope.ofInference p digest) document →
          ∃ e : Descriptor, Outline.Reordered d e ∧
            declareDescriptor name document = .ok (e.declare name) := by
  obtain ⟨digest, taken⟩ := encodableP.exists_digest
  obtain ⟨own, takenQ⟩ := encodableQ.exists_digest
  have checked :=
    declareDescriptor_of_readInference (readInference_ofInference q digest) takenQ name
  have same : own = digest ↔ Json.Reordered p q :=
    eq_comm.trans (Json.digest_eq_iff_reordered distinct noCollision taken takenQ)
  refine ⟨digest, by rw [Sample.digest_ofJson distinct, taken]; rfl, ?_, ?_, ?_⟩
  · rw [checked, ← same]
    split_ifs with equal
    · refine iff_of_true ?_ equal
      cases Descriptor.ofSample (Sample.ofJson q) <;> exact nofun
    · exact iff_of_false (fun passes => passes rfl) equal
  · intro reordered
    rw [checked, if_pos (same.2 reordered)]
    exact ⟨reordered.legible legible, rfl⟩
  · rintro s d inferred rfl document moved
    exact declareDescriptor_of_reordered (infer_distinct inferred) taken moved name

/-- A descriptor is let through with its two members moved; but the floating-point number 1 is not
let through with the digest of the whole number 1. -/
theorem declareDescriptor_of_moved_members :
    let null : Text × Json := (Text.ofString "a", .text (Text.ofString "null"))
    let array : Text × Json := (Text.ofString "b", .array [.text (Text.ofString "number")])
    let d : Descriptor := .object [(Text.ofString "b", .array (.primitive .number)),
      (Text.ofString "a", .primitive .null)]
    let name := Text.ofString "Sample"
    let one : Binary64 := .finite false (2 ^ 52) (-52)
    (∃ digest, (Sample.ofJson (.object [null, array])).digest = .ok digest ∧
      declareDescriptor name (Envelope.ofInference (.object [array, null]) digest) =
        .ok (d.declare name)) ∧
    ∃ digest, (Sample.ofJson (.int 1)).digest = .ok digest ∧
      declareDescriptor name (Envelope.ofInference (.float one) digest) =
        .error .digestMismatch := by
  intro null array d name one
  constructor
  · have distinct : (Json.object [null, array]).Distinct :=
      Descriptor.distinct_toJson (.object [(Text.ofString "a", .primitive .null),
        (Text.ofString "b", .array (.primitive .number))])
    have plain {t : Text} (h : Text.Ascii t) : ∀ c ∈ t, c.isSurrogate = false := h.isSurrogate_eq
    have encodableNull : null.2.Encodable := .text (plain (by decide))
    have encodableArray : array.2.Encodable :=
      .array (List.forall_mem_singleton.2 (.text (plain (by decide))))
    have encodable {members : List (Text × Json)} (h : ∀ m ∈ members, m = null ∨ m = array) :
        (Json.object members).Encodable := by
      refine .object (fun m hm => ?_) fun m hm => ?_
      · rcases h m hm with rfl | rfl <;> exact plain (by decide)
      · rcases h m hm with rfl | rfl
        · exact encodableNull
        · exact encodableArray
    have moved : Json.Reordered (.object [null, array]) (.object [array, null]) := .move (.swap ..)
    have legibleText (t : Text) : (Json.text t).Legible := Json.legible_leaf nofun nofun nofun
    have legible : (Json.object [null, array]).Legible := by
      refine Json.legible_object (List.forall_mem_cons.2 ⟨legibleText _, ?_⟩)
      refine List.forall_mem_singleton.2 (Json.legible_array ?_)
      exact List.forall_mem_singleton.2 (legibleText _)
    obtain ⟨digest, taken, -, passes, -⟩ := declareDescriptor_passes_iff_reordered distinct
      (encodable (by simp)) (encodable (by simp)) legible
      (Json.not_collides_of_reordered distinct moved) name
    exact ⟨digest, taken, (passes moved).2⟩
  · have written : Utf8.encode (Json.int 1).sorted.compact = .ok [0x31] := rfl
    have writtenOne : Utf8.encode (Json.float one).sorted.compact = .ok [0x31, 0x2E, 0x30] := by
      have layout : Json.numbers.write one = Text.ofString "1.0" := by decide +kernel
      rw [Json.sorted, Json.compact, layout]
      rfl
    have hashes : Sha256.digest [0x31] ≠ Sha256.digest [0x31, 0x2E, 0x30] := by decide +kernel
    have legible : (Json.int 1).Legible := by
      intro n within
      cases (Json.within_iff_eq (by simp) (by simp)).1 within
      decide
    obtain ⟨digest, taken, passes, -⟩ := declareDescriptor_passes_iff_reordered (.int 1) (.int 1)
      (.float one) legible (Json.not_collides_of_ne written writtenOne hashes) name
    refine ⟨digest, taken, ?_⟩
    -- The two forms have different bytes, so the values are no reorderings of each other.
    by_contra passed
    rw [(Json.reordered_iff (.int 1)).1 (passes.1 passed), writtenOne] at written
    cases written

end SampleTypes.Command
