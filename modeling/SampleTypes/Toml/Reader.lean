import SampleTypes.Toml.Scalar

/-!
# Reading TOML

A document is read line by line. Of what can be wrong with one, only this is told apart: a whole
number that is written in decimal with too many digits, and everything else. The fault that comes
first in the document counts.

## Main definitions

* `Toml.read` — the table of a document
* `Toml.Fault` — why a text is no document
-/

namespace SampleTypes.Toml

/-- Why a text is no document. -/
inductive Fault where
  | malformed
  | integerTooLong (digits : Nat)
  deriving DecidableEq, Repr

/-- A result, or the text is malformed. -/
def orMalformed {α : Type} : Option α → Except Fault α
  | some a => .ok a
  | none => .error .malformed

/-- The text without the blanks in front. -/
def skipBlanks (t : Text) : Text := t.dropWhile isBlank

/-- The text without the comment in front, if there is one. -/
def skipComment (t : Text) : Except Fault Text :=
  match drop? '#' t with
  | none => .ok t
  | some rest =>
    if (rest.takeWhile (· != ofChar '\n')).any isForbidden then .error .malformed
    else .ok (rest.dropWhile (· != ofChar '\n'))

/-- The text without blanks, line ends and comments in front. -/
def skipSpaceFrom (inComment : Bool) : Text → Except Fault Text
  | [] => .ok []
  | c :: rest =>
    if inComment then
      if c = ofChar '\n' then skipSpaceFrom false rest
      else if isForbidden c then .error .malformed
      else skipSpaceFrom true rest
    else if isSpace c then skipSpaceFrom false rest
    else if c = ofChar '#' then skipSpaceFrom true rest
    else .ok (c :: rest)

/-- The text without blanks, line ends and comments in front. -/
def skipSpace (t : Text) : Except Fault Text := skipSpaceFrom false t

/-! ## Keys -/

/-- The code points of names without quotes. -/
def isBare (c : CodePoint) : Bool :=
  c.isAlphanumeric || c == ofChar '-' || c == ofChar '_'

/-- A name at the front of a text, and what follows it. -/
def name? (t : Text) : Option (Text × Text) :=
  match t.takeWhile isBare with
  | [] => lineString? t
  | bare => some (bare, t.dropWhile isBare)

/-- The rest of a key, and what follows it. A name takes at least one code point, so the length of
the text is enough fuel. -/
def keyFrom (parent : Path) : (fuel : Nat) → Text → Except Fault (Key × Text)
  | 0, _ => .error .malformed
  | fuel + 1, t => do
    let (name, rest) ← orMalformed (name? t)
    match drop? '.' (skipBlanks rest) with
    | some rest => keyFrom (parent ++ [name]) fuel (skipBlanks rest)
    | none => return (⟨parent, name⟩, skipBlanks rest)

/-- A key at the front of a text, and what follows it and the blanks after it. -/
def key (t : Text) : Except Fault (Key × Text) := keyFrom [] (t.length + 1) t

/-- A key and the equals sign after it, and what follows them. -/
def keyEquals (t : Text) : Except Fault (Key × Text) := do
  let (k, rest) ← key t
  return (k, skipBlanks (← orMalformed (drop? '=' rest)))

/-! ## Values -/

/-- A decimal number, if it is not too long a whole one. -/
def numeralValue (n : Json.Numeral) : Except Fault Value :=
  match n.value with
  | .ok (.int i) => .ok (.integer i)
  | .ok (.float x) => .ok (.float x)
  | .error (.integerTooLong digits) => .error (.integerTooLong digits)
  | _ => .error .malformed

/-- A value that is no collection at the front of a text, and what follows it. -/
def scalar (t : Text) : Except Fault (Value × Text) :=
  match string? t with
  | some (s, rest) => .ok (.text s, rest)
  | none =>
  match Text.after? (Text.ofString "true") t, Text.after? (Text.ofString "false") t with
  | some rest, _ => .ok (.bool true, rest)
  | none, some rest => .ok (.bool false, rest)
  | none, none =>
  -- A date begins like a number, so it has to be tried first.
  match moment? t with
  | some (moment, rest) => (orMalformed moment).map fun v => (v, rest)
  | none =>
  match based? t with
  | some (n, rest) => .ok (.integer n, rest)
  | none =>
  match numeral? t with
  | some (n, rest) => (numeralValue n).map fun v => (v, rest)
  | none => (orMalformed (special? t)).map fun (x, rest) => (.float x, rest)

mutual

/-- A value at the front of a text, and what follows it. A bracket takes two calls and a separator
one, so twice the length of the text is enough fuel. -/
def value : (fuel : Nat) → Text → Except Fault (Value × Text)
  | 0, _ => .error .malformed
  | fuel + 1, t =>
    match drop? '[' t, drop? '\x7b' t with
    | some rest, _ => do
      let rest ← skipSpace rest
      match drop? ']' rest with
      | some rest => return (.array [], rest)
      | none => items fuel [] rest
    | none, some rest =>
      let rest := skipBlanks rest
      match drop? '\x7d' rest with
      | some rest => .ok (.table [], rest)
      | none => entries fuel {} rest
    | none, none => scalar t
termination_by structural fuel => fuel

/-- The items of an array from one of them on, and what follows the array; those before are
reversed. A comma may follow the last one. -/
def items : (fuel : Nat) → List Value → Text → Except Fault (Value × Text)
  | 0, _, _ => .error .malformed
  | fuel + 1, before, t => do
    let (item, rest) ← value fuel t
    let before := item :: before
    let rest ← skipSpace rest
    match drop? ']' rest with
    | some rest => return (.array before.reverse, rest)
    | none =>
      let rest ← skipSpace (← orMalformed (drop? ',' rest))
      match drop? ']' rest with
      | some rest => return (.array before.reverse, rest)
      | none => items fuel before rest
termination_by structural fuel => fuel

/-- The entries of a table on one line from one of them on, and what follows the table. -/
def entries : (fuel : Nat) → Draft → Text → Except Fault (Value × Text)
  | 0, _, _ => .error .malformed
  | fuel + 1, draft, t => do
    let (k, rest) ← keyEquals t
    let (v, rest) ← value fuel rest
    let draft ← orMalformed (draft.assign? k v)
    -- Unlike that of an array, the last entry has no comma after it.
    let rest := skipBlanks rest
    match drop? '\x7d' rest with
    | some rest => return (.table draft.root, rest)
    | none => entries fuel draft (skipBlanks (← orMalformed (drop? ',' rest)))
termination_by structural fuel => fuel

end

/-! ## Documents -/

/-- A statement at the front of a line, and what follows it. An empty line and a comment say
nothing. -/
def statement (draft : Draft) (t : Text) : Except Fault (Draft × Text) :=
  match t with
  | [] => .ok (draft, [])
  | c :: rest =>
    if c = ofChar '\n' ∨ c = ofChar '#' then .ok (draft, t)
    else if c = ofChar '[' then
      -- Two brackets without a blank between them open an item of an array.
      match drop? '[' rest with
      | some rest => do
        let (k, rest) ← key (skipBlanks rest)
        let draft ← orMalformed (draft.openItem? k)
        return (draft, ← orMalformed ((drop? ']' rest).bind (drop? ']')))
      | none => do
        let (k, rest) ← key (skipBlanks rest)
        let draft ← orMalformed (draft.openTable? k)
        return (draft, ← orMalformed (drop? ']' rest))
    else do
      let (k, rest) ← keyEquals t
      let (v, rest) ← value (2 * rest.length + 1) rest
      return (← orMalformed (draft.assign? k v), rest)

/-- The lines of a document from one of them on. Each of them but the last ends with a line end,
so the length of the text is enough fuel. -/
def lines : (fuel : Nat) → Draft → Text → Except Fault Draft
  | 0, _, _ => .error .malformed
  | fuel + 1, draft, t => do
    let (draft, rest) ← statement draft (skipBlanks t)
    match ← skipComment (skipBlanks rest) with
    | [] => return draft
    | c :: rest => if c = ofChar '\n' then lines fuel draft rest else .error .malformed

/-- The table of a document. -/
def read (document : Text) : Except Fault Value :=
  (lines (document.length + 1) {} document).map fun draft => .table draft.root

end SampleTypes.Toml
