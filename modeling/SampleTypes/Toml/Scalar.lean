import SampleTypes.Toml.Basic
import SampleTypes.Json.Reader

/-!
# Scalars of TOML

Strings, numbers, dates and times. Each reader takes the text that is left and returns what it
read and what is left after it; none of them says what is wrong with a text that it cannot read.

## Main definitions

* `Toml.string?` — strings between quotation marks or apostrophes, on one line or on several
* `Toml.based?` — whole numbers to the bases 2, 8 and 16
* `Toml.numeral?`, `Toml.special?` — decimal numbers, whole or not, and the numbers that are words
* `Toml.moment?` — dates and times
-/

namespace SampleTypes.Toml

/-- Blanks within a line. -/
def isBlank (c : CodePoint) : Bool := c == ofChar ' ' || c == ofChar '\t'

/-- Blanks and line ends. -/
def isSpace (c : CodePoint) : Bool := isBlank c || c == ofChar '\n'

/-- The control characters that may stand neither in a comment nor in a string. -/
def isForbidden (c : CodePoint) : Bool :=
  (c.isControl && c != ofChar '\t') || c == ofChar '\x7f'

/-- What may not stand in a string: a string on several lines holds line ends too. -/
def isForbiddenIn (multiline : Bool) (c : CodePoint) : Bool :=
  isForbidden c && !(multiline && c == ofChar '\n')

/-- Drop a given code point from the front of a text, if it is there. -/
def drop? (c : Char) : Text → Option Text
  | [] => none
  | d :: rest => if d = ofChar c then some rest else none

/-! ## Strings -/

/-- Where a string stands between quotation marks that knows escapes. -/
inductive StringState where
  | plain
  /-- After a backslash. -/
  | escape
  /-- Within the hexadecimal digits of an escape: how many are missing, and their value. -/
  | digits (missing value : Nat)
  /-- After a backslash and blanks; the line has to end. -/
  | lineEnd
  /-- After a line end that was escaped; spaces are skipped. -/
  | nextLine
  deriving DecidableEq, Repr

/-- What an escape of one letter stands for. -/
def unescape? (c : CodePoint) : Option Char :=
  if c = ofChar 'b' then some '\x08'
  else if c = ofChar 't' then some '\t'
  else if c = ofChar 'n' then some '\n'
  else if c = ofChar 'f' then some '\x0c'
  else if c = ofChar 'r' then some '\r'
  else if c = ofChar '\x22' then some '\x22'
  else if c = ofChar '\\' then some '\\'
  else none

/-- The character with a number. -/
def scalar? (n : Nat) : Option CodePoint :=
  if h : n < 0x110000 then
    let c : CodePoint := ⟨n, h⟩
    if c.isSurrogate then none else some c
  else none

/-- Three quotation marks at the end of a string on several lines, of which one was read; and up
to two more, which belong to the string. -/
def closing? (quote : Char) (t : Text) (rest : Text) : Option (Text × Text) := do
  let rest ← drop? quote (← drop? quote rest)
  match drop? quote rest with
  | none => return (t, rest)
  | some rest =>
    match drop? quote rest with
    | none => return (t ++ [ofChar quote], rest)
    | some rest => return (t ++ [ofChar quote, ofChar quote], rest)

/-- The rest of a string between quotation marks, and what follows it; the code points before are
reversed. -/
def basicFrom? (multiline : Bool) (state : StringState) (before : Text) :
    Text → Option (Text × Text)
  | [] => none
  | c :: rest =>
    match state with
    | .digits missing value => do
      let value := 16 * value + (← c.digitValue?)
      if missing ≤ 1 then basicFrom? multiline .plain ((← scalar? value) :: before) rest
      else basicFrom? multiline (.digits (missing - 1) value) before rest
    | .escape =>
      if multiline && isBlank c then basicFrom? multiline .lineEnd before rest
      else if multiline && c == ofChar '\n' then basicFrom? multiline .nextLine before rest
      else if c = ofChar 'u' then basicFrom? multiline (.digits 4 0) before rest
      else if c = ofChar 'U' then basicFrom? multiline (.digits 8 0) before rest
      else
        match unescape? c with
        | some d => basicFrom? multiline .plain (ofChar d :: before) rest
        | none => none
    | .lineEnd =>
      if isBlank c then basicFrom? multiline .lineEnd before rest
      else if c = ofChar '\n' then basicFrom? multiline .nextLine before rest
      else none
    -- What remains is plain, or at the start of a line that was joined to the one before.
    | state =>
      if state = .nextLine ∧ isSpace c then basicFrom? multiline .nextLine before rest
      else if c = ofChar '\x22' then
        if multiline then
          match closing? '\x22' before.reverse rest with
          | some closed => some closed
          | none => basicFrom? multiline .plain (c :: before) rest
        else some (before.reverse, rest)
      else if c = ofChar '\\' then basicFrom? multiline .escape before rest
      else if isForbiddenIn multiline c then none
      else basicFrom? multiline .plain (c :: before) rest

/-- The rest of a string between apostrophes, and what follows it; the code points before are
reversed. -/
def literalFrom? (multiline : Bool) (before : Text) : Text → Option (Text × Text)
  | [] => none
  | c :: rest =>
    if c = ofChar '\x27' then
      if multiline then
        match closing? '\x27' before.reverse rest with
        | some closed => some closed
        | none => literalFrom? multiline (c :: before) rest
      else some (before.reverse, rest)
    else if isForbiddenIn multiline c then none
    else literalFrom? multiline (c :: before) rest

/-- What follows three quotation marks in front of a text. A line end directly after them does
not belong to the string. -/
def opening? (quote : Char) (t : Text) : Option Text := do
  let rest ← drop? quote (← drop? quote (← drop? quote t))
  return (drop? '\n' rest).getD rest

/-- A string on one line at the front of a text, and what follows it. -/
def lineString? (t : Text) : Option (Text × Text) :=
  match drop? '\x22' t with
  | some rest => basicFrom? false .plain [] rest
  | none => (drop? '\x27' t).bind (literalFrom? false [])

/-- A string at the front of a text, and what follows it. -/
def string? (t : Text) : Option (Text × Text) :=
  match opening? '\x22' t, opening? '\x27' t with
  | some rest, _ => basicFrom? true .plain [] rest
  | none, some rest => literalFrom? true [] rest
  | none, none => lineString? t

/-! ## Numbers -/

/-- Digits after a digit, each with an underscore before it or none, and what follows them. -/
def moreDigits (isDigit : CodePoint → Bool) : Text → Text × Text
  | [] => ([], [])
  | c :: rest =>
    if isDigit c then
      let (digits, rest) := moreDigits isDigit rest
      (c :: digits, rest)
    else
      match rest with
      | [] => ([], [c])
      | d :: rest' =>
        if c = ofChar '_' ∧ isDigit d then
          let (digits, rest) := moreDigits isDigit rest'
          (d :: digits, rest)
        else ([], c :: rest)

/-- The digits at the front of a text, without underscores between them, and what follows them;
there may be none. -/
def takeDigits (isDigit : CodePoint → Bool) : Text → Text × Text
  | [] => ([], [])
  | c :: rest => if isDigit c then moreDigits isDigit (c :: rest) else ([], c :: rest)

/-- The letter after a zero that announces a base. -/
def base? (c : CodePoint) : Option Nat :=
  if c = ofChar 'x' then some 16
  else if c = ofChar 'o' then some 8
  else if c = ofChar 'b' then some 2
  else none

/-- Whether a code point is a digit to a base. -/
def isDigitTo (base : Nat) (c : CodePoint) : Bool :=
  match c.digitValue? with
  | some d => d < base
  | none => false

/-- A whole number that announces its base, and what follows it. -/
def based? : Text → Option (Nat × Text)
  | zero :: letter :: rest => do
    if zero ≠ ofChar '0' then none
    let base ← base? letter
    let (digits, rest) := takeDigits (isDigitTo base) rest
    if digits = [] then none
    return (digits.foldl (fun n c => base * n + c.digitValue?.getD 0) 0, rest)
  | _ => none

/-- The digits of a whole number: a zero alone, or digits of which the first is none. -/
def takeWhole (t : Text) : Text × Text :=
  match drop? '0' t with
  | some rest => ([ofChar '0'], rest)
  | none => takeDigits CodePoint.isDigit t

/-- The digits after a point, if there is a point and a digit after it. -/
def takeFraction (t : Text) : Text × Text :=
  match (drop? '.' t).map (takeDigits CodePoint.isDigit) with
  | some (c :: digits, rest) => (c :: digits, rest)
  | _ => ([], t)

/-- The exponent, if there are a letter for it and a digit. -/
def takeExponent (t : Text) : Option Int × Text :=
  match (drop? 'e' t <|> drop? 'E' t).map Binary64.takeSign with
  | none => (none, t)
  | some (negative, rest) =>
    match takeDigits CodePoint.isDigit rest with
    | ([], _) => (none, t)
    | (digits, rest) => (some (Binary64.signed negative (Text.toNat digits)), rest)

/-- A decimal number at the front of a text, and what follows it. -/
def numeral? (t : Text) : Option (Json.Numeral × Text) :=
  let (negative, rest) := Binary64.takeSign t
  let (whole, rest) := takeWhole rest
  if whole = [] then none
  else
    let (fraction, rest) := takeFraction rest
    let (exponent, rest) := takeExponent rest
    some (⟨negative, whole, fraction, exponent⟩, rest)

/-- A word for a number that has no digits, and what follows it. -/
def special? (t : Text) : Option (Binary64 × Text) :=
  let (negative, rest) := Binary64.takeSign t
  match Text.after? (Text.ofString "inf") rest, Text.after? (Text.ofString "nan") rest with
  | some rest, _ => some (.infinite negative, rest)
  | none, some rest => some (.nan, rest)
  | none, none => none

/-! ## Dates and times -/

/-- A number of exactly so many digits, and what follows it. -/
def fixed? (width : Nat) (t : Text) : Option (Nat × Text) :=
  let digits := t.take width
  if digits.length = width ∧ digits.all CodePoint.isDigit then
    some (Text.toNat digits, t.drop width)
  else none

/-- A number of two digits between bounds, and what follows it. -/
def two? (low high : Nat) (t : Text) : Option (Nat × Text) := do
  let (n, rest) ← fixed? 2 t
  if low ≤ n ∧ n ≤ high then return (n, rest) else none

/-- What follows a time of the day. -/
def afterTime? (t : Text) : Option Text := do
  let (_, rest) ← two? 0 23 t
  let (_, rest) ← two? 0 59 (← drop? ':' rest)
  let (_, rest) ← two? 0 59 (← drop? ':' rest)
  match (drop? '.' rest).map fun t => (t.takeWhile CodePoint.isDigit, t) with
  | some (_ :: _, t) => return t.dropWhile CodePoint.isDigit
  | _ => return rest

/-- What follows an offset from universal time. -/
def afterOffset? (t : Text) : Option Text :=
  match drop? 'Z' t <|> drop? 'z' t with
  | some rest => some rest
  | none => do
    let (_, rest) ← two? 0 23 (← drop? '+' t <|> drop? '-' t)
    let (_, rest) ← two? 0 59 (← drop? ':' rest)
    return rest

/-- What follows a letter and a time of the day, with or without an offset. -/
def afterDayTime? (t : Text) : Option Text := do
  let rest ← afterTime? (← drop? 'T' t <|> drop? 't' t <|> drop? ' ' t)
  return (afterOffset? rest).getD rest

/-- The number of days of a month. -/
def daysOf (year month : Nat) : Nat :=
  if month = 2 then
    if year % 4 = 0 ∧ (year % 100 ≠ 0 ∨ year % 400 = 0) then 29 else 28
  else if month = 4 ∨ month = 6 ∨ month = 9 ∨ month = 11 then 30
  else 31

/-- The year, month and day at the front of a text, and what follows them. -/
def day? (t : Text) : Option ((Nat × Nat × Nat) × Text) := do
  let (year, rest) ← fixed? 4 t
  let (month, rest) ← two? 1 12 (← drop? '-' rest)
  let (day, rest) ← two? 1 31 (← drop? '-' rest)
  return ((year, month, day), rest)

/-- A date or a time at the front of a text, and what follows it. The year zero and days that
their month does not have are no dates. -/
def moment? (t : Text) : Option (Option Value × Text) :=
  let written (rest : Text) : Text := t.take (t.length - rest.length)
  match day? t with
  | some ((year, month, day), rest) =>
    let rest := (afterDayTime? rest).getD rest
    -- The text is that of a date in any case, so it is not read as anything else.
    if year = 0 ∨ daysOf year month < day then some (none, rest)
    else some (some (.date (written rest)), rest)
  | none => (afterTime? t).map fun rest => (some (.time (written rest)), rest)

end SampleTypes.Toml
