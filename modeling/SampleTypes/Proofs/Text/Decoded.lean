import SampleTypes.Proofs.Stages
import SampleTypes.Proofs.Text.Utf8
import SampleTypes.Text.Newline

/-!
# Decoded texts

What is decoded is a text whose bytes are the ones that were read. A sequence that has begun
carries the reason with it: however it goes on within its bounds, it ends as the bytes of a code
point that is no surrogate. So no overlong form is read, no surrogate, and nothing past the last
code point.

## Main definitions

* `Utf8.Completes` — bytes that begin a code point, whatever follows them within bounds

## Main results

* `Utf8.completes_ofLead` — a first byte is announced only as it can go on
* `Utf8.decode_eq_ok_iff` — decoding undoes encoding, and nothing else
* `Text.ofDocument_eq_ok_iff` — the bytes that a document has
-/

namespace SampleTypes.Utf8

theorem byte_eq_iff {n : Nat} (h : n < 256) (b : UInt8) : byte n = b ↔ n = b.toNat := by
  rw [← UInt8.toNat_inj, byte_toNat h]

/-- The bits of these bytes are those of a code point that has just these bytes, once so many more
came; the next is between the bounds, and those after it are continuation bytes. -/
def Completes (front : List UInt8) (bits : Nat) : (missing low high : Nat) → Prop
  | 0, _, _ => ∃ c : CodePoint, c.val = bits ∧ c.isSurrogate = false ∧ encodeOne c = front
  | missing + 1, low, high => ∀ b : UInt8, low ≤ b.toNat → b.toNat ≤ high →
      Completes (front ++ [b]) (64 * bits + b.toNat % 64) missing 0x80 0xBF

/-- A code point that is no surrogate, of a number and its bytes. -/
theorem completes_of_encodeOne {front : List UInt8} {n : Nat} (bound : n < 0x110000)
    (plain : ¬ (0xD800 ≤ n ∧ n ≤ 0xDFFF)) (h : encodeOne ⟨n, bound⟩ = front) (low high : Nat) :
    Completes front n 0 low high :=
  ⟨⟨n, bound⟩, rfl, by simpa [CodePoint.isSurrogate] using plain, h⟩

variable {lead : UInt8} {bits low high : Nat}

theorem completes_two (first : lead.toNat = 0xC0 + bits) (least : 2 ≤ bits) (greatest : bits < 32)
    (from_low : 0x80 ≤ low) (to_high : high ≤ 0xBF) : Completes [lead] bits 1 low high := by
  intro b lower upper
  refine completes_of_encodeOne (by omega) (by omega) ?_ _ _
  simp only [encodeOne]
  rw [if_neg (by omega), if_pos (by omega)]
  simp only [List.cons_append, List.nil_append, List.cons.injEq, and_true]
  exact ⟨(byte_eq_iff (by omega) _).2 (by omega), (byte_eq_iff (by omega) _).2 (by omega)⟩

/-- Of three bytes, the second tells overlong forms and surrogates. -/
theorem completes_three (first : lead.toNat = 0xE0 + bits) (greatest : bits < 16)
    (from_low : 0x80 ≤ low) (to_high : high ≤ 0xBF) (overlong : bits = 0 → 0xA0 ≤ low)
    (surrogates : bits = 0xD → high ≤ 0x9F) : Completes [lead] bits 2 low high := by
  intro b lower upper c lower' upper'
  refine completes_of_encodeOne (by omega) (by omega) ?_ _ _
  simp only [encodeOne]
  rw [if_neg (by omega), if_neg (by omega), if_pos (by omega)]
  simp only [List.cons_append, List.nil_append, List.cons.injEq, and_true]
  exact ⟨(byte_eq_iff (by omega) _).2 (by omega), (byte_eq_iff (by omega) _).2 (by omega),
    (byte_eq_iff (by omega) _).2 (by omega)⟩

/-- Of four bytes, it tells overlong forms and what is past the last code point. -/
theorem completes_four (first : lead.toNat = 0xF0 + bits) (greatest : bits ≤ 4)
    (from_low : 0x80 ≤ low) (to_high : high ≤ 0xBF) (overlong : bits = 0 → 0x90 ≤ low)
    (past : bits = 4 → high ≤ 0x8F) : Completes [lead] bits 3 low high := by
  intro b lower upper c lower' upper' d lower'' upper''
  refine completes_of_encodeOne (by omega) (by omega) ?_ _ _
  simp only [encodeOne]
  rw [if_neg (by omega), if_neg (by omega), if_neg (by omega)]
  simp only [List.cons_append, List.nil_append, List.cons.injEq, and_true]
  exact ⟨(byte_eq_iff (by omega) _).2 (by omega), (byte_eq_iff (by omega) _).2 (by omega),
    (byte_eq_iff (by omega) _).2 (by omega), (byte_eq_iff (by omega) _).2 (by omega)⟩

/-- What was read is the front of a code point, and some of it is missing. -/
def Pending.Completes (p : Pending) (front : List UInt8) : Prop :=
  0 < p.missing ∧ Utf8.Completes front p.bits p.missing p.low p.high

/-- A first byte announces a sequence only as it can go on. -/
theorem completes_ofLead {b : UInt8} {p : Pending} (h : Pending.ofLead? b = some p) :
    p.Completes [b] := by
  simp only [Pending.ofLead?] at h
  -- One case for each class of first bytes: one of two bytes, three of three and three of four.
  split_ifs at h <;> cases h <;> simp only [Pending.Completes]
  · exact ⟨Nat.succ_pos _, completes_two (by omega) (by omega) (by omega) (by omega) (by omega)⟩
  iterate 3
    exact ⟨Nat.succ_pos _, completes_three (by omega) (by omega) (by omega) (by omega) (by omega)
      (by omega)⟩
  iterate 3
    exact ⟨Nat.succ_pos _, completes_four (by omega) (by omega) (by omega) (by omega) (by omega)
      (by omega)⟩

/-- Reading the next byte of a sequence, if it is not the last. -/
theorem Pending.Completes.middle {p : Pending} {front : List UInt8} (h : p.Completes front)
    {b : UInt8} (inner : p.low ≤ b.toNat ∧ b.toNat ≤ p.high) (more : ¬ p.missing ≤ 1) :
    Pending.Completes ⟨p.lead, p.read + 1, 64 * p.bits + b.toNat % 64, p.missing - 1, 0x80, 0xBF⟩
      (front ++ [b]) := by
  obtain ⟨missing, hm⟩ : ∃ missing, p.missing = missing + 2 := ⟨p.missing - 2, by omega⟩
  have next := h.2
  rw [hm] at next
  simp only [Pending.Completes, hm]
  exact ⟨by omega, next b inner.1 inner.2⟩

/-- Reading the last byte of a sequence. -/
theorem Pending.Completes.last {p : Pending} {front : List UInt8} (h : p.Completes front)
    {b : UInt8} (inner : p.low ≤ b.toNat ∧ b.toNat ≤ p.high) (last : p.missing ≤ 1) :
    ∃ c : CodePoint, CodePoint.ofNat (64 * p.bits + b.toNat % 64) = c ∧ c.isSurrogate = false ∧
      encodeOne c = front ++ [b] := by
  have hm : p.missing = 1 := Nat.le_antisymm last h.1
  have next := h.2
  rw [hm] at next
  obtain ⟨c, value, plain, bytes⟩ := next b inner.1 inner.2
  exact ⟨c, by rw [← value, CodePoint.ofNat_val], plain, bytes⟩

/-! ## Decoding -/

theorem encode_cons {c : CodePoint} {u : Text} {bytes : List UInt8}
    (hc : c.isSurrogate = false) (h : encode u = .ok bytes) :
    encode (c :: u) = .ok (encodeOne c ++ bytes) := by
  obtain ⟨plain, rfl⟩ := (encode_eq_ok_iff u bytes).1 h
  exact (encode_eq_ok_iff _ _).2 ⟨List.forall_mem_cons.2 ⟨hc, plain⟩, List.flatMap_cons.symm⟩

/-- A byte of ASCII is a code point. -/
theorem encodeOne_ascii {b : UInt8} (ascii : b.toNat < 0x80) :
    (CodePoint.ofNat b.toNat).isSurrogate = false ∧ encodeOne (.ofNat b.toNat) = [b] := by
  have value : (CodePoint.ofNat b.toNat).val = b.toNat := CodePoint.val_ofNat (by omega)
  constructor
  · have plain : ¬ (0xD800 ≤ b.toNat ∧ b.toNat ≤ 0xDFFF) := by omega
    simpa [CodePoint.isSurrogate, value] using plain
  · rw [encodeOne, value, if_pos ascii, (byte_eq_iff (by omega) b).2 rfl]

/-- These bytes were read of the sequence that has begun, none between sequences. -/
def Owed (front : List UInt8) : Option Pending → Prop
  | none => front = []
  | some p => p.Completes front

/-- A text that goes on, after what stands before, with the code points of these bytes. -/
def Continues (before : Text) (bytes : List UInt8) (t : Text) : Prop :=
  ∃ u, encode u = .ok bytes ∧ t = before.reverse ++ u

theorem Continues.cons {c : CodePoint} {before t : Text} {bytes : List UInt8}
    (h : Continues (c :: before) bytes t) (hc : c.isSurrogate = false) :
    Continues before (encodeOne c ++ bytes) t := by
  obtain ⟨u, hu, rfl⟩ := h
  exact ⟨c :: u, encode_cons hc hu, by simp⟩

/-- Decoding goes on with the code points of what was read last and what follows. -/
theorem continues_of_decodeFrom {position : Nat} {before : Text} {state : Option Pending}
    {bytes : List UInt8} {t : Text} (h : decodeFrom position before state bytes = .ok t)
    {front : List UInt8} (owed : Owed front state) : Continues before (front ++ bytes) t := by
  induction bytes generalizing position before state front with
  | nil =>
    cases state with
    | none =>
      cases owed
      cases h
      exact ⟨[], rfl, (List.append_nil _).symm⟩
    | some p => cases h
  | cons b rest ih =>
    rw [← List.singleton_append, ← List.append_assoc]
    cases state with
    | none =>
      cases owed
      rw [decodeFrom] at h
      split_ifs at h with ascii
      · obtain ⟨plain, bytes⟩ := encodeOne_ascii ascii
        rw [List.nil_append, ← bytes]
        exact (ih h rfl).cons plain
      · cases hp : Pending.ofLead? b with
        | none => simp [hp] at h
        | some p =>
          rw [hp] at h
          exact ih h (completes_ofLead hp)
    | some p =>
      rw [decodeFrom] at h
      split_ifs at h with inner last
      · obtain ⟨c, rfl, plain, bytes⟩ := Pending.Completes.last owed inner last
        rw [← bytes]
        exact (ih h rfl).cons plain
      · exact ih h (Pending.Completes.middle owed inner last)

/-- No two texts have the same bytes. -/
theorem encode_inj {t u : Text} {bytes : List UInt8} (ht : encode t = .ok bytes)
    (hu : encode u = .ok bytes) : t = u :=
  Except.ok.inj ((decode_encode ht).symm.trans (decode_encode hu))

/-- Bytes are decoded to the text that has them. -/
theorem decode_eq_ok_iff (bytes : List UInt8) (t : Text) :
    decode bytes = .ok t ↔ encode t = .ok bytes := by
  refine ⟨fun h => ?_, decode_encode⟩
  obtain ⟨u, hu, rfl⟩ := continues_of_decodeFrom h (show Owed [] none from rfl)
  exact hu

end SampleTypes.Utf8

namespace SampleTypes.Text

/-! ## Documents -/

theorem ofDocument_eq_ok_iff (bytes : List UInt8) (document : Text) :
    ofDocument bytes = .ok document ↔
      ∃ t, Utf8.encode t = .ok bytes ∧ t.unifyNewlines = document := by
  simp only [ofDocument, map_eq_ok_iff, Utf8.decode_eq_ok_iff]

/-- Only the line ends of a document change, and none of them is a digit. -/
theorem countP_unifyNewlinesFrom (afterReturn : Bool) (t : Text) :
    (unifyNewlinesFrom afterReturn t).countP CodePoint.isDigit = t.countP CodePoint.isDigit := by
  have lineFeed : (ofChar '\n').isDigit = false := rfl
  have carriageReturn : (ofChar '\r').isDigit = false := rfl
  induction t generalizing afterReturn with
  | nil => rfl
  | cons c t ih =>
    rw [unifyNewlinesFrom]
    split_ifs with return? feed
    · simp [ih, return?, lineFeed, carriageReturn]
    · simp [ih, feed.1, lineFeed]
    · simp [List.countP_cons, ih]

end SampleTypes.Text
