import SampleTypes.Text.Basic

/-!
# UTF-8

Encoding and strict decoding. Encoding fails on surrogates and names the first run of them;
decoding fails on the first byte sequence that no text has and names its place and fault.

## Main definitions

* `Utf8.encode` — bytes of a text, or the first run of surrogates
* `Utf8.decode` — the text of some bytes, or the first malformed sequence
* `Utf8.Unencodable`, `Utf8.Malformed` — the two kinds of failure, with their messages
-/

namespace SampleTypes.Utf8

/-- A byte with the low eight bits of a number. -/
def byte (n : Nat) : UInt8 := UInt8.ofNat n

/-- The one to four bytes of a code point. -/
def encodeOne (c : CodePoint) : List UInt8 :=
  let n := c.val
  if n < 0x80 then [byte n]
  else if n < 0x800 then [byte (0xC0 + n / 64), byte (0x80 + n % 64)]
  else if n < 0x10000 then
    [byte (0xE0 + n / 4096), byte (0x80 + n / 64 % 64), byte (0x80 + n % 64)]
  else
    [byte (0xF0 + n / 262144), byte (0x80 + n / 4096 % 64), byte (0x80 + n / 64 % 64),
      byte (0x80 + n % 64)]

/-- Surrogates in a text to be encoded: where the first run of them starts, and the run. -/
structure Unencodable where
  start : Nat
  run : Text
  deriving DecidableEq, Repr

/-- The bytes of a text. -/
def encode (t : Text) : Except Unencodable (List UInt8) :=
  match t.findIdx? CodePoint.isSurrogate with
  | none => .ok (t.flatMap encodeOne)
  | some i => .error ⟨i, (t.drop i).takeWhile CodePoint.isSurrogate⟩

/-- The hexadecimal digits of a number, at least `width` of them. -/
def hex (width n : Nat) : Text :=
  let digits := (Nat.toDigits 16 n).map ofChar
  List.replicate (width - digits.length) (ofChar '0') ++ digits

/-- A run of one is named by its code point, a longer one by its first and last position. -/
def Unencodable.message (e : Unencodable) : Text :=
  let place := match e.run with
    | [c] =>
      Text.ofString "can't encode character '\\u" ++ hex 4 c.val ++ Text.ofString "' in position "
        ++ Text.ofNat e.start
    | run =>
      Text.ofString "can't encode characters in position " ++ Text.ofNat e.start ++ [ofChar '-']
        ++ Text.ofNat (e.start + run.length - 1)
  Text.ofString "'utf-8' codec " ++ place ++ Text.ofString ": surrogates not allowed"

/-- Why a byte sequence is no text. -/
inductive Fault where
  /-- No sequence starts with this byte. -/
  | start
  /-- The byte after these cannot follow them. -/
  | continuation
  /-- The bytes end within a sequence. -/
  | ending
  deriving DecidableEq, Repr

/-- The text of a fault. -/
def Fault.message : Fault → Text
  | .start => Text.ofString "invalid start byte"
  | .continuation => Text.ofString "invalid continuation byte"
  | .ending => Text.ofString "unexpected end of data"

/-- Bytes that are no text: where they start, how many were read before the fault, the first of
them, and the fault. -/
structure Malformed where
  start : Nat
  length : Nat
  lead : UInt8
  fault : Fault
  deriving DecidableEq, Repr

/-- A single byte is shown, a longer sequence is named by its first and last position. -/
def Malformed.message (e : Malformed) : Text :=
  let place :=
    if e.length = 1 then
      Text.ofString "can't decode byte 0x" ++ hex 2 e.lead.toNat ++ Text.ofString " in position "
        ++ Text.ofNat e.start
    else
      Text.ofString "can't decode bytes in position " ++ Text.ofNat e.start ++ [ofChar '-']
        ++ Text.ofNat (e.start + e.length - 1)
  Text.ofString "'utf-8' codec " ++ place ++ Text.ofString ": " ++ e.fault.message

/-- A sequence that has begun: its first byte, the number of bytes read, the bits so far, how
many bytes are missing, and the bounds of the next one. -/
structure Pending where
  lead : UInt8
  read : Nat
  bits : Nat
  missing : Nat
  low : Nat := 0x80
  high : Nat := 0xBF
  deriving DecidableEq, Repr

/-- What a first byte beyond ASCII announces. The bounds on the second byte keep out overlong
forms, surrogates and numbers past the last code point. -/
def Pending.ofLead? (b : UInt8) : Option Pending :=
  let n := b.toNat
  if n < 0xC2 then none
  else if n ≤ 0xDF then some ⟨b, 1, n - 0xC0, 1, 0x80, 0xBF⟩
  else if n = 0xE0 then some ⟨b, 1, 0, 2, 0xA0, 0xBF⟩
  else if n = 0xED then some ⟨b, 1, 0xD, 2, 0x80, 0x9F⟩
  else if n ≤ 0xEF then some ⟨b, 1, n - 0xE0, 2, 0x80, 0xBF⟩
  else if n = 0xF0 then some ⟨b, 1, 0, 3, 0x90, 0xBF⟩
  else if n ≤ 0xF3 then some ⟨b, 1, n - 0xF0, 3, 0x80, 0xBF⟩
  else if n = 0xF4 then some ⟨b, 1, 4, 3, 0x80, 0x8F⟩
  else none

/-- Decode from a position on, between sequences or within one; the text before is kept
reversed. -/
def decodeFrom (position : Nat) (before : Text) :
    Option Pending → List UInt8 → Except Malformed Text
  | none, [] => .ok before.reverse
  | some p, [] => .error ⟨position - p.read, p.read, p.lead, .ending⟩
  | none, b :: rest =>
    if b.toNat < 0x80 then decodeFrom (position + 1) (.ofNat b.toNat :: before) none rest
    else match Pending.ofLead? b with
      | none => .error ⟨position, 1, b, .start⟩
      | some p => decodeFrom (position + 1) before (some p) rest
  | some p, b :: rest =>
    if p.low ≤ b.toNat ∧ b.toNat ≤ p.high then
      -- Six bits come from each byte but the first, and only the second has bounds of its own.
      let bits := 64 * p.bits + b.toNat % 64
      if p.missing ≤ 1 then decodeFrom (position + 1) (.ofNat bits :: before) none rest
      else decodeFrom (position + 1) before
        (some ⟨p.lead, p.read + 1, bits, p.missing - 1, 0x80, 0xBF⟩) rest
    else .error ⟨position - p.read, p.read, p.lead, .continuation⟩

/-- The text that some bytes encode. -/
def decode (bytes : List UInt8) : Except Malformed Text := decodeFrom 0 [] none bytes

end SampleTypes.Utf8
