import Mathlib.Tactic.SplitIfs
import SampleTypes.Text.Utf8

/-!
# Encoded texts

A text has bytes if it holds no surrogate, and its bytes are decoded to the text again. A first
byte fixes how many follow it and the bounds of the second; the bounds leave out no second byte
that a code point other than a surrogate has.

## Main definitions

* `Text.Encodable` — a text without surrogates

## Main results

* `Utf8.encode_eq_ok_iff` — which texts have bytes, and which bytes they have
* `Utf8.decodeFrom_encodeOne` — decoding takes the bytes of one code point
* `Utf8.decode_encode` — decoding undoes encoding
-/

namespace SampleTypes.Text

/-- No code point of a text is a surrogate. -/
def Encodable (t : Text) : Prop := ∀ c ∈ t, c.isSurrogate = false

instance (t : Text) : Decidable t.Encodable := List.decidableBAll _ t

variable {s t : Text}

@[simp] theorem encodable_cons {c : CodePoint} :
    Encodable (c :: t) ↔ c.isSurrogate = false ∧ t.Encodable :=
  List.forall_mem_cons

@[simp] theorem encodable_append : Encodable (s ++ t) ↔ s.Encodable ∧ t.Encodable :=
  List.forall_mem_append

theorem encodable_flatMap {α : Type} {f : α → Text} {l : List α} :
    Encodable (l.flatMap f) ↔ ∀ a ∈ l, (f a).Encodable := by
  simp only [Encodable, List.mem_flatMap]
  exact ⟨fun h a ha c hc => h c ⟨a, ha, hc⟩, fun h c ⟨a, ha, hc⟩ => h a ha c hc⟩

end SampleTypes.Text

namespace SampleTypes.Utf8

theorem encode_eq_ok_iff (t : Text) (bytes : List UInt8) :
    encode t = .ok bytes ↔ (∀ c ∈ t, c.isSurrogate = false) ∧ bytes = t.flatMap encodeOne := by
  rw [← List.findIdx?_eq_none_iff, encode]
  cases t.findIdx? CodePoint.isSurrogate with
  | none => simp [eq_comm]
  | some i => simp

/-! ## Decoding one code point -/

theorem byte_toNat {n : Nat} (h : n < 256) : (byte n).toNat = n := by
  rw [byte, UInt8.toNat_ofNat']
  exact Nat.mod_eq_of_lt h

/-- A sequence that has begun wants so many bytes more after these bits, and the next may be this
one. -/
structure Pending.Awaits (p : Pending) (bits missing next : Nat) : Prop where
  bits : p.bits = bits
  missing : p.missing = missing
  low : p.low ≤ next
  high : next ≤ p.high

/-- What a first byte announces of a sequence of two bytes. -/
theorem Pending.ofLead_two {n : Nat} (h : 0x80 ≤ n) (h' : n < 0x800) :
    ∃ p, Pending.ofLead? (byte (0xC0 + n / 64)) = some p ∧
      p.Awaits (n / 64) 1 (0x80 + n % 64) := by
  have lead : (byte (0xC0 + n / 64)).toNat = 0xC0 + n / 64 := byte_toNat (by omega)
  simp only [Pending.ofLead?, lead]
  rw [if_neg (by omega), if_pos (by omega)]
  refine ⟨_, rfl, ⟨?_, rfl, ?_, ?_⟩⟩ <;> simp only <;> omega

/-- What it announces of three bytes. -/
theorem Pending.ofLead_three {n : Nat} (h : 0x800 ≤ n) (h' : n < 0x10000)
    (plain : ¬ (0xD800 ≤ n ∧ n ≤ 0xDFFF)) :
    ∃ p, Pending.ofLead? (byte (0xE0 + n / 4096)) = some p ∧
      p.Awaits (n / 4096) 2 (0x80 + n / 64 % 64) := by
  have lead : (byte (0xE0 + n / 4096)).toNat = 0xE0 + n / 4096 := byte_toNat (by omega)
  simp only [Pending.ofLead?, lead]
  rw [if_neg (by omega), if_neg (by omega)]
  -- The least first byte keeps out overlong forms, and one other keeps out surrogates.
  by_cases least : 0xE0 + n / 4096 = 0xE0
  · rw [if_pos least]
    refine ⟨_, rfl, ⟨?_, rfl, ?_, ?_⟩⟩ <;> simp only <;> omega
  · rw [if_neg least]
    by_cases surrogates : 0xE0 + n / 4096 = 0xED
    · rw [if_pos surrogates]
      refine ⟨_, rfl, ⟨?_, rfl, ?_, ?_⟩⟩ <;> simp only <;> omega
    · rw [if_neg surrogates, if_pos (by omega)]
      refine ⟨_, rfl, ⟨?_, rfl, ?_, ?_⟩⟩ <;> simp only <;> omega

/-- What it announces of four bytes. -/
theorem Pending.ofLead_four {n : Nat} (h : 0x10000 ≤ n) (h' : n < 0x110000) :
    ∃ p, Pending.ofLead? (byte (0xF0 + n / 262144)) = some p ∧
      p.Awaits (n / 262144) 3 (0x80 + n / 4096 % 64) := by
  have lead : (byte (0xF0 + n / 262144)).toNat = 0xF0 + n / 262144 := byte_toNat (by omega)
  simp only [Pending.ofLead?, lead]
  rw [if_neg (by omega), if_neg (by omega), if_neg (by omega), if_neg (by omega),
    if_neg (by omega)]
  -- The least first byte keeps out overlong forms, the greatest what is past the last code point.
  by_cases least : 0xF0 + n / 262144 = 0xF0
  · rw [if_pos least]
    refine ⟨_, rfl, ⟨?_, rfl, ?_, ?_⟩⟩ <;> simp only <;> omega
  · rw [if_neg least]
    by_cases inner : 0xF0 + n / 262144 ≤ 0xF3
    · rw [if_pos inner]
      refine ⟨_, rfl, ⟨?_, rfl, ?_, ?_⟩⟩ <;> simp only <;> omega
    · rw [if_neg inner, if_pos (by omega)]
      refine ⟨_, rfl, ⟨?_, rfl, ?_, ?_⟩⟩ <;> simp only <;> omega

variable {position : Nat} {before : Text} {rest : List UInt8}

theorem decodeFrom_lead {n : Nat} (h : 0x80 ≤ n) (h' : n < 256) {p : Pending}
    (hp : Pending.ofLead? (byte n) = some p) :
    decodeFrom position before none (byte n :: rest) =
      decodeFrom (position + 1) before (some p) rest := by
  have lead := byte_toNat h'
  rw [decodeFrom, if_neg (by omega), hp]

/-- A byte in the middle of a sequence. -/
theorem decodeFrom_middle {p : Pending} {bits missing k : Nat}
    (h : p.Awaits bits (missing + 2) (0x80 + k)) (hk : k < 64) (next : Nat) (hn : next < 64) :
    ∃ q : Pending, q.Awaits (64 * bits + k) (missing + 1) (0x80 + next) ∧
      ∀ position before rest, decodeFrom position before (some p) (byte (0x80 + k) :: rest) =
        decodeFrom (position + 1) before (some q) rest := by
  have value : (byte (0x80 + k)).toNat = 0x80 + k := byte_toNat (by omega)
  have hm := h.missing
  have hb := h.bits
  refine ⟨⟨p.lead, p.read + 1, 64 * p.bits + (0x80 + k) % 64, p.missing - 1, 0x80, 0xBF⟩, ?_, ?_⟩
  · refine ⟨?_, ?_, ?_, ?_⟩ <;> simp only <;> omega
  · intro position before rest
    rw [decodeFrom, value, if_pos ⟨h.low, h.high⟩]
    simp only
    rw [if_neg (by omega)]

/-- The last byte of a sequence. -/
theorem decodeFrom_last {p : Pending} {bits k : Nat} (h : p.Awaits bits 1 (0x80 + k))
    (hk : k < 64) :
    decodeFrom position before (some p) (byte (0x80 + k) :: rest) =
      decodeFrom (position + 1) (.ofNat (64 * bits + k) :: before) none rest := by
  have value : (byte (0x80 + k)).toNat = 0x80 + k := byte_toNat (by omega)
  have hm := h.missing
  have low : (0x80 + k) % 64 = k := by omega
  rw [decodeFrom, value, if_pos ⟨h.low, h.high⟩]
  simp only
  rw [if_pos (by omega), h.bits, low]

/-- Decoding takes the bytes of a code point as a whole. -/
theorem decodeFrom_encodeOne (c : CodePoint) (hc : c.isSurrogate = false) :
    decodeFrom position before none (encodeOne c ++ rest) =
      decodeFrom (position + (encodeOne c).length) (c :: before) none rest := by
  have bound := c.isLt
  have plain : ¬ (0xD800 ≤ c.val ∧ c.val ≤ 0xDFFF) := by
    simpa [CodePoint.isSurrogate] using hc
  -- One case for each length that the bytes of a code point can have.
  by_cases one : c.val < 0x80
  · have form : encodeOne c = [byte c.val] := by simp only [encodeOne, if_pos one]
    have value : (byte c.val).toNat = c.val := byte_toNat (by omega)
    rw [form, List.singleton_append, decodeFrom, value, if_pos one, CodePoint.ofNat_val]
    rfl
  by_cases two : c.val < 0x800
  · have form : encodeOne c = [byte (0xC0 + c.val / 64), byte (0x80 + c.val % 64)] := by
      simp only [encodeOne, if_neg one, if_pos two]
    obtain ⟨p, lead, awaits⟩ := Pending.ofLead_two (by omega) two
    have whole : 64 * (c.val / 64) + c.val % 64 = c.val := by omega
    rw [form, List.cons_append, List.singleton_append,
      decodeFrom_lead (by omega) (by omega) lead, decodeFrom_last awaits (by omega), whole,
      CodePoint.ofNat_val]
    rfl
  by_cases three : c.val < 0x10000
  · have form : encodeOne c = [byte (0xE0 + c.val / 4096), byte (0x80 + c.val / 64 % 64),
        byte (0x80 + c.val % 64)] := by
      simp only [encodeOne, if_neg one, if_neg two, if_pos three]
    obtain ⟨p, lead, awaits⟩ := Pending.ofLead_three (by omega) three plain
    obtain ⟨q, awaitsLast, middle⟩ :=
      decodeFrom_middle awaits (by omega) (c.val % 64) (by omega)
    have whole : 64 * (64 * (c.val / 4096) + c.val / 64 % 64) + c.val % 64 = c.val := by omega
    rw [form, List.cons_append, List.cons_append, List.singleton_append,
      decodeFrom_lead (by omega) (by omega) lead, middle, decodeFrom_last awaitsLast (by omega),
      whole, CodePoint.ofNat_val]
    rfl
  · have form : encodeOne c = [byte (0xF0 + c.val / 262144), byte (0x80 + c.val / 4096 % 64),
        byte (0x80 + c.val / 64 % 64), byte (0x80 + c.val % 64)] := by
      simp only [encodeOne, if_neg one, if_neg two, if_neg three]
    obtain ⟨p, lead, awaits⟩ := Pending.ofLead_four (by omega) bound
    obtain ⟨q, awaitsThird, second⟩ :=
      decodeFrom_middle awaits (by omega) (c.val / 64 % 64) (by omega)
    obtain ⟨r, awaitsLast, third⟩ :=
      decodeFrom_middle awaitsThird (by omega) (c.val % 64) (by omega)
    have whole : 64 * (64 * (64 * (c.val / 262144) + c.val / 4096 % 64) + c.val / 64 % 64)
        + c.val % 64 = c.val := by omega
    rw [form, List.cons_append, List.cons_append, List.cons_append, List.singleton_append,
      decodeFrom_lead (by omega) (by omega) lead, second, third,
      decodeFrom_last awaitsLast (by omega), whole, CodePoint.ofNat_val]
    rfl

/-- Decoding takes the bytes of a text code point by code point. -/
theorem decodeFrom_encode {t : Text} (h : ∀ c ∈ t, c.isSurrogate = false) (position : Nat)
    (before : Text) :
    decodeFrom position before none (t.flatMap encodeOne) = .ok (before.reverse ++ t) := by
  induction t generalizing position before with
  | nil => simp [decodeFrom]
  | cons c t ih =>
    have hc := h c (List.mem_cons_self ..)
    have ht := ih fun d hd => h d (List.mem_cons_of_mem _ hd)
    rw [List.flatMap_cons, decodeFrom_encodeOne c hc, ht]
    simp

/-- The bytes of a text are decoded to it. -/
theorem decode_encode {t : Text} {bytes : List UInt8} (h : encode t = .ok bytes) :
    decode bytes = .ok t := by
  obtain ⟨plain, rfl⟩ := (encode_eq_ok_iff t bytes).1 h
  exact decodeFrom_encode plain 0 []

end SampleTypes.Utf8
