import SampleTypes.Proofs.Json.Digest
import SampleTypes.Proofs.Json.Reordering

/-!
# What digests tell apart

A digest is taken of the sorted compact form of a value. So values have one digest if they are
reorderings of each other, and only then, unless the hash takes the bytes of two different forms to
one digest: that its bytes are written in hexadecimal, and that the form is turned into bytes, hides
nothing.

## Main definitions

* `Json.Encodable` — a value without surrogates
* `Json.Collides` — two values whose forms have different bytes and one hash

## Main results

* `Json.exists_digest_iff` — the values with digests are those without surrogates
* `hexadecimal_inj` — bytes are told apart by their digits
* `Json.digest_eq_iff_reordered` — which values have one digest
-/

namespace SampleTypes

/-! ## Hexadecimal digits -/

theorem Utf8.digit_inj {m n : Nat} (hm : m < 16) (hn : n < 16) (h : digit m = digit n) : m = n := by
  have values := digitValue?_digit hm
  rw [h, digitValue?_digit hn] at values
  exact (Option.some.inj values).symm

theorem Utf8.hex_two {n : Nat} (h : n < 256) : hex 2 n = [digit (n / 16), digit (n % 16)] := by
  rw [hex_succ (by decide), hex_one (by omega), List.singleton_append]

/-- Bytes are told apart by their hexadecimal digits. -/
theorem hexadecimal_inj {as bs : List UInt8} (h : hexadecimal as = hexadecimal bs) : as = bs := by
  induction as generalizing bs with
  | nil =>
    cases bs with
    | nil => rfl
    | cons b bs => simp [hexadecimal, Utf8.hex_two b.toNat_lt] at h
  | cons a as ih =>
    cases bs with
    | nil => simp [hexadecimal, Utf8.hex_two a.toNat_lt] at h
    | cons b bs =>
      have ha := a.toNat_lt
      have hb := b.toNat_lt
      simp only [hexadecimal, List.flatMap_cons, Utf8.hex_two ha, Utf8.hex_two hb,
        List.cons_append, List.nil_append, List.cons.injEq] at h
      obtain ⟨high, low, rest⟩ := h
      have highs := Utf8.digit_inj (by omega) (by omega) high
      have lows := Utf8.digit_inj (by omega) (by omega) low
      rw [UInt8.toNat_inj.1 (show a.toNat = b.toNat by omega), ih rest]

namespace Json

/-! ## Values without surrogates -/

/-- No text and no name in the value has a surrogate in it. -/
inductive Encodable : Json → Prop
  | null : Encodable .null
  | bool (b : Bool) : Encodable (.bool b)
  | int (n : Int) : Encodable (.int n)
  | float (x : Binary64) : Encodable (.float x)
  | text {t : Text} (h : ∀ c ∈ t, c.isSurrogate = false) : Encodable (.text t)
  | array {items : List Json} (h : ∀ j ∈ items, Encodable j) : Encodable (.array items)
  | object {members : List (Text × Json)} (names : ∀ m ∈ members, ∀ c ∈ m.1, c.isSurrogate = false)
      (h : ∀ m ∈ members, Encodable m.2) : Encodable (.object members)

/-- In a compact form a code point stands for itself or is written as in ASCII. -/
theorem stringOne_false (c : CodePoint) :
    stringOne false c = stringOne true c ∨ stringOne false c = [c] := by
  cases short : shortEscape? c with
  | some letter => exact .inl (by simp only [stringOne, short])
  | none =>
    cases control : c.isControl with
    | true => exact .inl (by simp [stringOne, short, control])
    | false => exact .inr (by simp [stringOne, short, control])

theorem isSurrogate_of_mem_string {t : Text} (h : ∀ c ∈ t, c.isSurrogate = false) :
    ∀ c ∈ string false t, c.isSurrogate = false := by
  have quote : ∀ c ∈ [ofChar '\x22'], c.isSurrogate = false :=
    List.forall_mem_singleton.2 (by decide)
  have inside : ∀ c ∈ t.flatMap (stringOne false), c.isSurrogate = false := by
    intro d hd
    obtain ⟨c, hc, hd⟩ := List.mem_flatMap.1 hd
    rcases stringOne_false c with same | same <;> rw [same] at hd
    · exact (ascii_stringOne c).isSurrogate_eq d hd
    · exact List.mem_singleton.1 hd ▸ h c hc
  exact List.forall_mem_append.2 ⟨quote, List.forall_mem_append.2 ⟨inside, quote⟩⟩

/-- Neither does the sorted compact form of such a value have surrogates. -/
theorem Encodable.isSurrogate_of_mem {j : Json} (h : j.Encodable) :
    ∀ c ∈ j.sorted.compact, c.isSurrogate = false := by
  have plain {t : Text} (ht : Text.Ascii t) := ht.isSurrogate_eq
  induction h with
  | null => exact plain (by decide)
  | bool b => exact plain (by cases b <;> decide)
  | int n => exact plain (Text.ascii_ofInt n)
  | float x => exact plain (Layout.ascii_write (by decide) x)
  | text h => exact isSurrogate_of_mem_string h
  | @array items _ ih =>
    have parts : ∀ t ∈ items.map fun j => j.sorted.compact, ∀ c ∈ t, c.isSurrogate = false :=
      List.forall_mem_map.2 ih
    rw [sorted_compact_array]
    exact List.forall_mem_cons.2 ⟨by decide, List.forall_mem_append.2
      ⟨Text.forall_mem_joinWith (plain (by decide)) parts, plain (by decide)⟩⟩
  | @object members names _ ih =>
    have parts : ∀ t ∈ (Entries.sort (members.map fun m => (m.1, m.2.sorted.compact))).map
        (fun e => string false e.1 ++ ofChar ':' :: e.2), ∀ c ∈ t, c.isSurrogate = false := by
      intro t ht
      obtain ⟨e, he, rfl⟩ := List.mem_map.1 ht
      obtain ⟨m, hm, rfl⟩ := List.mem_map.1 ((Entries.sort_perm _).mem_iff.1 he)
      exact List.forall_mem_append.2 ⟨isSurrogate_of_mem_string (names m hm),
        List.forall_mem_cons.2 ⟨by decide, ih m hm⟩⟩
    rw [sorted_compact_object]
    exact List.forall_mem_cons.2 ⟨by decide, List.forall_mem_append.2
      ⟨Text.forall_mem_joinWith (plain (by decide)) parts, plain (by decide)⟩⟩

/-- A value without surrogates has a digest. -/
theorem Encodable.exists_digest {j : Json} (h : j.Encodable) : ∃ digest, j.digest = .ok digest :=
  Json.exists_digest h.isSurrogate_of_mem

theorem Encodable.item {items : List Json} (h : Encodable (.array items)) {j : Json}
    (hj : j ∈ items) : j.Encodable := by
  cases h with
  | array h => exact h j hj

theorem Encodable.name {members : List (Text × Json)} (h : Encodable (.object members))
    {m : Text × Json} (hm : m ∈ members) : m.1.Encodable := by
  cases h with
  | object names _ => exact names m hm

theorem Encodable.member {members : List (Text × Json)} (h : Encodable (.object members))
    {m : Text × Json} (hm : m ∈ members) : m.2.Encodable := by
  cases h with
  | object _ h => exact h m hm

/-- The sorted compact form hides no surrogate. -/
theorem Encodable.of_compact {j : Json} (plain : j.sorted.compact.Encodable) : j.Encodable := by
  induction j with
  | null => exact .null
  | bool b => exact .bool b
  | int n => exact .int n
  | float x => exact .float x
  | text t => exact .text (writable_of_string plain rfl)
  | array items ih =>
    rw [sorted_compact_array, Text.encodable_cons, Text.encodable_append] at plain
    refine .array fun j hj => ih j hj fun c hc => plain.2.1 c ?_
    exact Text.mem_joinWith _ (List.mem_map_of_mem (f := fun j : Json => j.sorted.compact) hj) hc
  | object members ih =>
    rw [sorted_compact_object, Text.encodable_cons, Text.encodable_append] at plain
    -- The string of the name and the form of the value are both parts of the form of the object.
    have inside : ∀ m ∈ members,
        (string false m.1 ++ ofChar ':' :: m.2.sorted.compact).Encodable := by
      intro m hm c hc
      have entry := (Entries.sort_perm _).mem_iff.2
        (List.mem_map_of_mem (f := fun m : Text × Json => (m.1, m.2.sorted.compact)) hm)
      have part := List.mem_map_of_mem
        (f := fun e : Text × Text => string false e.1 ++ ofChar ':' :: e.2) entry
      exact plain.2.1 c (Text.mem_joinWith _ part hc)
    refine .object (fun m hm => ?_) fun m hm => ih m hm ?_
    · exact writable_of_string (Text.encodable_append.1 (inside m hm)).1 rfl
    · exact (Text.encodable_cons.1 (Text.encodable_append.1 (inside m hm)).2).2

/-- The values with digests are those without surrogates. -/
theorem exists_digest_iff {j : Json} : (∃ digest, j.digest = .ok digest) ↔ j.Encodable := by
  refine ⟨fun h => ?_, Encodable.exists_digest⟩
  obtain ⟨digest, taken⟩ := h
  obtain ⟨bytes, encoded, -⟩ := (digest_eq_ok_iff j digest).1 taken
  exact .of_compact ((Utf8.encode_eq_ok_iff _ _).1 encoded).1

theorem Reordered.digest_eq {j k : Json} (h : Reordered j k) (distinct : j.Distinct) :
    j.digest = k.digest := by
  rw [Json.digest, Json.digest, (h.sorted_compact_eq distinct).1]

/-! ## Collisions -/

/-- The forms of two values have different bytes, and the bytes have one hash. -/
def Collides (j k : Json) : Prop :=
  ∃ as bs, Utf8.encode j.sorted.compact = .ok as ∧ Utf8.encode k.sorted.compact = .ok bs ∧
    as ≠ bs ∧ Sha256.digest as = Sha256.digest bs

theorem not_collides_of_reordered {j k : Json} (distinct : j.Distinct) (h : Reordered j k) :
    ¬ Collides j k := by
  rintro ⟨as, bs, encodedJ, encodedK, differ, _⟩
  rw [(reordered_iff distinct).1 h, encodedK] at encodedJ
  exact differ (Except.ok.inj encodedJ).symm

theorem not_collides_of_ne {j k : Json} {as bs : List UInt8}
    (hj : Utf8.encode j.sorted.compact = .ok as) (hk : Utf8.encode k.sorted.compact = .ok bs)
    (differ : Sha256.digest as ≠ Sha256.digest bs) : ¬ Collides j k := by
  rintro ⟨as', bs', encodedJ, encodedK, -, same⟩
  rw [hj] at encodedJ
  rw [hk] at encodedK
  cases encodedJ
  cases encodedK
  exact differ same

/-- Unless their forms collide, values have one digest exactly if they are reorderings of each
other. -/
theorem digest_eq_iff_reordered {j k : Json} (distinct : j.Distinct) (noCollision : ¬ Collides j k)
    {digest digest' : Text} (hj : j.digest = .ok digest) (hk : k.digest = .ok digest') :
    digest = digest' ↔ Reordered j k := by
  obtain ⟨as, encodedJ, rfl⟩ := (digest_eq_ok_iff j digest).1 hj
  obtain ⟨bs, encodedK, rfl⟩ := (digest_eq_ok_iff k digest').1 hk
  rw [reordered_iff distinct]
  constructor
  · intro same
    have hashes := hexadecimal_inj same
    have bytes : as = bs := by
      by_contra differ
      exact noCollision ⟨as, bs, encodedJ, encodedK, differ, hashes⟩
    -- Bytes are decoded to the one text that they encode.
    have decoded := Utf8.decode_encode encodedJ
    rw [bytes, Utf8.decode_encode encodedK] at decoded
    exact (Except.ok.inj decoded).symm
  · intro same
    rw [same, encodedK] at encodedJ
    rw [Except.ok.inj encodedJ]

end Json

end SampleTypes
