import SampleTypes.Json.Basic
import SampleTypes.Number.Exact

/-!
# Reading JSON

A document is one value among blanks. Beyond the standard, the words `NaN`, `Infinity` and
`-Infinity` are numbers, and a string may escape surrogates that pair with nothing. A member that
repeats a name replaces the value of the earlier one. Whole numbers have at most
`Json.maxDigits` digits.

The readers take the text that is left and return what is left after them; a reader that fails
returns the text at which it failed, from which the place in the document follows.

## Main definitions

* `Json.read` — the value of a document
* `Json.ReadError` — the first fault of a document, with its place, and its message
-/

namespace SampleTypes.Json

/-- What can be wrong at a place of a document. -/
inductive Problem where
  | byteOrderMark
  | value
  | extra
  | name
  | colon
  | comma
  | control
  | unterminated
  | escape
  | unicodeEscape
  deriving DecidableEq, Repr

/-- The text of a problem. -/
def Problem.message : Problem → Text
  | .byteOrderMark => Text.ofString "Unexpected UTF-8 BOM (decode using utf-8-sig)"
  | .value => Text.ofString "Expecting value"
  | .extra => Text.ofString "Extra data"
  | .name => Text.ofString "Expecting property name enclosed in double quotes"
  | .colon => Text.ofString "Expecting ':' delimiter"
  | .comma => Text.ofString "Expecting ',' delimiter"
  | .control => Text.ofString "Invalid control character at"
  | .unterminated => Text.ofString "Unterminated string starting at"
  | .escape => Text.ofString "Invalid \\escape"
  | .unicodeEscape => Text.ofString "Invalid \\uXXXX escape"

/-- A place in a document: line and column from one, position from zero. -/
structure Place where
  line : Nat
  column : Nat
  position : Nat
  deriving DecidableEq, Repr

/-- The place after some text. -/
def Place.after (t : Text) : Place where
  line := t.count (ofChar '\n') + 1
  column := (t.reverse.takeWhile (· != ofChar '\n')).length + 1
  position := t.length

/-- Why a document has no value. -/
inductive ReadError where
  | malformed (problem : Problem) (place : Place)
  | integerTooLong (digits : Nat)
  deriving DecidableEq, Repr

/-- The greatest number of digits of a whole number. -/
def maxDigits : Nat := 4300

/-- The message about a whole number with too many digits. -/
def tooLongMessage (digits : Nat) : Text :=
  Text.ofString "Exceeds the limit (" ++ Text.ofNat maxDigits
    ++ Text.ofString " digits) for integer string conversion: value has " ++ Text.ofNat digits
    ++ Text.ofString " digits; use sys.set_int_max_str_digits() to increase the limit"

/-- The problem and its place, or the number of digits. -/
def ReadError.message : ReadError → Text
  | .malformed problem place =>
    problem.message ++ Text.ofString ": line " ++ Text.ofNat place.line
      ++ Text.ofString " column " ++ Text.ofNat place.column ++ Text.ofString " (char "
      ++ Text.ofNat place.position ++ [ofChar ')']
  | .integerTooLong digits => tooLongMessage digits

/-- Where and why a reader stopped. -/
inductive Stop where
  /-- A problem, and the text that begins where it lies. -/
  | problem (p : Problem) (rest : Text)
  | integerTooLong (digits : Nat)
  deriving DecidableEq, Repr

/-- Blanks between the parts of a document. -/
def isBlank (c : CodePoint) : Bool :=
  c == ofChar ' ' || c == ofChar '\t' || c == ofChar '\n' || c == ofChar '\r'

/-- The text without the blanks in front. -/
def skipBlanks (t : Text) : Text := t.dropWhile isBlank

/-- What follows a given code point, which has to come first. -/
def expect (c : Char) (p : Problem) : Text → Except Stop Text
  | [] => .error (.problem p [])
  | d :: rest => if d = ofChar c then .ok rest else .error (.problem p (d :: rest))

/-! ## Strings -/

/-- The number of four hexadecimal digits. -/
def hex4? (a b c d : CodePoint) : Option Nat := do
  let a ← a.digitValue?
  let b ← b.digitValue?
  let c ← c.digitValue?
  let d ← d.digitValue?
  return 0x1000 * a + 0x100 * b + 0x10 * c + d

/-- What an escape of one letter stands for. -/
def unescape? (c : CodePoint) : Option Char :=
  if c = ofChar '\x22' then some '\x22'
  else if c = ofChar '\\' then some '\\'
  else if c = ofChar '/' then some '/'
  else if c = ofChar 'b' then some '\x08'
  else if c = ofChar 'f' then some '\x0c'
  else if c = ofChar 'n' then some '\n'
  else if c = ofChar 'r' then some '\r'
  else if c = ofChar 't' then some '\t'
  else none

/-- The code point above `U+FFFF` of a surrogate pair. -/
def joinPair (high low : CodePoint) : CodePoint :=
  .ofNat (0x10000 + (high.val - 0xD800) * 0x400 + (low.val - 0xDC00))

/-- Add an escaped code point to those before it, which are reversed. A low surrogate pairs with
a high one that was escaped just before. -/
def addEscaped (afterHigh : Bool) (c : CodePoint) (before : Text) : Text :=
  match afterHigh, c.isLowSurrogate, before with
  | true, true, high :: earlier => joinPair high c :: earlier
  | _, _, _ => c :: before

/-- The rest of a string and what follows it. The string began at `opening`; the code points
before are reversed, and `afterHigh` says that the last of them was an escaped high surrogate. -/
def stringFrom (opening : Text) (afterHigh : Bool) (before : Text) :
    Text → Except Stop (Text × Text)
  | [] => .error (.problem .unterminated opening)
  | c :: rest =>
    if c = ofChar '\x22' then .ok (before.reverse, rest)
    else if c = ofChar '\\' then
      match rest with
      | [] => .error (.problem .unterminated opening)
      | e :: rest' =>
        if e = ofChar 'u' then
          match rest' with
          | h₁ :: h₂ :: h₃ :: h₄ :: rest'' =>
            -- A string cannot end with its escape, so the last digit may not be the last of all.
            match rest''.isEmpty, hex4? h₁ h₂ h₃ h₄ with
            | false, some n =>
              let unit := CodePoint.ofNat n
              stringFrom opening unit.isHighSurrogate (addEscaped afterHigh unit before) rest''
            | _, _ => .error (.problem .unicodeEscape rest)
          | _ => .error (.problem .unicodeEscape rest)
        else
          match unescape? e with
          | some d => stringFrom opening false (ofChar d :: before) rest'
          | none => .error (.problem .escape (c :: rest))
    else if c.isControl then .error (.problem .control (c :: rest))
    else stringFrom opening false (c :: before) rest

/-- A string, of which the quotation mark in front is the first code point of `opening`, and
what follows it. -/
def stringAt (opening : Text) : Except Stop (Text × Text) :=
  stringFrom opening false [] (opening.drop 1)

/-! ## Numbers -/

/-- The parts of a written number. -/
structure Numeral where
  negative : Bool
  whole : Text
  fraction : Text := []
  exponent : Option Int := none
  deriving DecidableEq, Repr

/-- The digits before the point: a zero alone, or digits of which the first is none. -/
def takeWhole (t : Text) : Text × Text :=
  match t with
  | [] => ([], [])
  | c :: rest =>
    if c = ofChar '0' then ([c], rest)
    else (t.takeWhile CodePoint.isDigit, t.dropWhile CodePoint.isDigit)

/-- The digits after a point, if there is a point and a digit after it. -/
def takeFraction (t : Text) : Text × Text :=
  match t with
  | [] => ([], [])
  | c :: rest =>
    let digits := rest.takeWhile CodePoint.isDigit
    if c = ofChar '.' ∧ digits ≠ [] then (digits, rest.dropWhile CodePoint.isDigit)
    else ([], t)

/-- The exponent, if there are a letter for it and a digit. -/
def takeExponent (t : Text) : Option Int × Text :=
  match t with
  | [] => (none, [])
  | c :: rest =>
    let (negative, rest) := Binary64.takeSign rest
    let digits := rest.takeWhile CodePoint.isDigit
    if c.toLower = ofChar 'e' ∧ digits ≠ [] then
      (some (Binary64.signed negative (Text.toNat digits)), rest.dropWhile CodePoint.isDigit)
    else (none, t)

/-- The number at the front of a text, as far as it reaches. -/
def numeral? (t : Text) : Option (Numeral × Text) :=
  let (negative, rest) := match t with
    | c :: rest => if c = ofChar '-' then (true, rest) else (false, t)
    | [] => (false, t)
  let (whole, rest) := takeWhole rest
  if whole = [] then none
  else
    let (fraction, rest) := takeFraction rest
    let (exponent, rest) := takeExponent rest
    some (⟨negative, whole, fraction, exponent⟩, rest)

/-- A whole number, if it is not too long. -/
def wholeNumber (negative : Bool) (digits : Text) : Except Stop Int :=
  if digits.length ≤ maxDigits then .ok (Binary64.signed negative digits.toNat)
  else .error (.integerTooLong digits.length)

/-- Numbers with a fraction or an exponent are floating-point numbers. -/
def Numeral.value (n : Numeral) : Except Stop Json :=
  if n.fraction = [] ∧ n.exponent = none then (wholeNumber n.negative n.whole).map .int
  else
    .ok (.float (Binary64.ofDecimal n.negative (Text.toNat (n.whole ++ n.fraction))
      (n.exponent.getD 0 - n.fraction.length)))

/-! ## Values -/

/-- The words that are values. -/
def words : List (Text × Json) :=
  [(Text.ofString "null", .null), (Text.ofString "true", .bool true),
    (Text.ofString "false", .bool false), (Text.ofString "NaN", .float .nan),
    (Text.ofString "Infinity", .float (.infinite false)),
    (Text.ofString "-Infinity", .float (.infinite true))]

/-- The word at the front of a text, and what follows it. -/
def word? (t : Text) : Option (Json × Text) :=
  words.findSome? fun (w, j) => (w.after? t).map fun rest => (j, rest)

/-- A word or a number. -/
def scalar (t : Text) : Except Stop (Json × Text) :=
  match word? t with
  | some found => .ok found
  | none =>
    match numeral? t with
    | some (n, rest) => n.value.map fun j => (j, rest)
    | none => .error (.problem .value t)

mutual

/-- A value and what follows it. The fuel bounds the depth of the calls; a bracket takes two of
them and a separator one, so twice the length of the text is enough. -/
def value : (fuel : Nat) → Text → Except Stop (Json × Text)
  | 0, t => .error (.problem .value t)
  | fuel + 1, t =>
    match t with
    | [] => .error (.problem .value [])
    | c :: rest =>
      if c = ofChar '\x22' then (stringAt t).map fun (s, rest) => (.text s, rest)
      else if c = ofChar '[' then
        match skipBlanks rest with
        | [] => items fuel [] []
        | d :: rest' =>
          if d = ofChar ']' then .ok (.array [], rest') else items fuel [] (d :: rest')
      else if c = ofChar '\x7b' then
        match skipBlanks rest with
        | [] => members fuel [] []
        | d :: rest' =>
          if d = ofChar '\x7d' then .ok (.object [], rest') else members fuel [] (d :: rest')
      else scalar t
termination_by structural fuel => fuel

/-- The items of an array from one of them on; those before are reversed. -/
def items : (fuel : Nat) → List Json → Text → Except Stop (Json × Text)
  | 0, _, t => .error (.problem .value t)
  | fuel + 1, before, t => do
    let (item, rest) ← value fuel t
    match skipBlanks rest with
    | [] => .error (.problem .comma [])
    | c :: rest =>
      -- A comma promises another item: a closing bracket after it is no value.
      if c = ofChar ']' then return (.array (item :: before).reverse, rest)
      else if c = ofChar ',' then items fuel (item :: before) (skipBlanks rest)
      else .error (.problem .comma (c :: rest))
termination_by structural fuel => fuel

/-- The members of an object from one of them on; those before are reversed. -/
def members : (fuel : Nat) → List (Text × Json) → Text → Except Stop (Json × Text)
  | 0, _, t => .error (.problem .name t)
  | fuel + 1, before, t => do
    -- The mark is only looked at here; the string is read with it.
    let _ ← expect '\x22' .name t
    let (name, rest) ← stringAt t
    let rest ← expect ':' .colon (skipBlanks rest)
    let (item, rest) ← value fuel (skipBlanks rest)
    match skipBlanks rest with
    | [] => .error (.problem .comma [])
    | c :: rest =>
      if c = ofChar '\x7d' then
        -- Repeated names are merged when all members are known.
        return (.object (Entries.ofPairs ((name, item) :: before).reverse), rest)
      else if c = ofChar ',' then members fuel ((name, item) :: before) (skipBlanks rest)
      else .error (.problem .comma (c :: rest))
termination_by structural fuel => fuel

end

/-- The value of a text that holds nothing else. -/
def whole (t : Text) : Except Stop Json := do
  let (j, rest) ← value (2 * t.length + 1) (skipBlanks t)
  match skipBlanks rest with
  | [] => return j
  | rest => .error (.problem .extra rest)

/-- The value of a document. -/
def read (document : Text) : Except ReadError Json :=
  if document.head? = some (ofChar '\uFEFF') then
    .error (.malformed .byteOrderMark (Place.after []))
  else
    match whole document with
    | .ok j => .ok j
    | .error (.problem p rest) =>
      .error (.malformed p (Place.after (document.take (document.length - rest.length))))
    | .error (.integerTooLong digits) => .error (.integerTooLong digits)

end SampleTypes.Json
