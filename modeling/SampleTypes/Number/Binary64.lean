import SampleTypes.Text.Blank

/-!
# Floating-point numbers

A floating-point number of 64 bits is kept as what it stands for: a sign, a whole number below
`2 ^ 53` and an exponent of two, or an infinity, or no number at all. Decimals are read exactly:
the nearest number is taken, and of two equally near ones the even one.

## Main definitions

* `Binary64` — the numbers
* `Binary64.ofRatio`, `Binary64.ofDecimal` — the number nearest to a ratio and to a decimal
* `Binary64.parse?` — the number that a text writes
* `Binary64.same` — numerical equality, in which the two zeros agree and no number is none
-/

namespace SampleTypes

/-- A floating-point number of 64 bits. The finite ones are `±mantissa · 2 ^ exponent`. -/
inductive Binary64 where
  | nan
  | infinite (negative : Bool)
  | finite (negative : Bool) (mantissa : Nat) (exponent : Int)
  deriving DecidableEq, Repr

/-- A quotient rounded to the nearest whole number, a half to the even one. -/
def roundDiv (num den : Nat) : Nat :=
  let q := num / den
  let twice := 2 * (num % den)
  if twice < den then q else if den < twice then q + 1 else q + q % 2

/-- A whole number times a power of a base, as numerator and denominator. -/
def scaled (n base : Nat) (exponent : Int) : Nat × Nat :=
  (n * Nat.pow base exponent.toNat, Nat.pow base (-exponent).toNat)

namespace Binary64

/-- The smallest exponent, that of the numbers nearest to zero. -/
def minExponent : Int := -1074

/-- The largest exponent. -/
def maxExponent : Int := 971

/-- Zero, with a sign. -/
def zero (negative : Bool) : Binary64 := .finite negative 0 minExponent

/-- The largest power of two that is at most `num / den`, as an exponent. -/
def floorLog (num den : Nat) : Int :=
  let e : Int := (num.log2 : Int) - (den.log2 : Int)
  if den * Nat.pow 2 e.toNat ≤ num * Nat.pow 2 (-e).toNat then e else e - 1

/-- The number nearest to `± num / den`. Above the largest number lies infinity. -/
def ofRatio (negative : Bool) (num den : Nat) : Binary64 :=
  if num = 0 ∨ den = 0 then zero negative
  else
    let e := max (floorLog num den - 52) minExponent
    -- One of the two powers is one; rounding up may reach the next power of two.
    let m := roundDiv (num * Nat.pow 2 (-e).toNat) (den * Nat.pow 2 e.toNat)
    let (m, e) := if m = Nat.pow 2 53 then (Nat.pow 2 52, e + 1) else (m, e)
    if maxExponent < e then .infinite negative else .finite negative m e

/-- The number nearest to `± digits · 10 ^ exponent`. A decimal far beyond the largest number is
infinite and one far below the smallest is zero, whatever its digits. -/
def ofDecimal (negative : Bool) (digits : Nat) (exponent : Int) : Binary64 :=
  if digits = 0 then zero negative
  else if 400 < exponent then .infinite negative
  else if exponent + digits.log2 < -400 then zero negative
  else
    let (num, den) := scaled digits 10 exponent
    ofRatio negative num den

/-- The number with the other sign. -/
def neg : Binary64 → Binary64
  | nan => nan
  | infinite s => infinite !s
  | finite s m e => finite (!s) m e

/-- Whether two numbers are equal as numbers. -/
def same : Binary64 → Binary64 → Bool
  | nan, _ => false
  | _, nan => false
  | finite s m e, finite s' m' e' => m == m' && e == e' && (s == s' || m == 0)
  | x, y => x == y

/-- A whole number, with a sign. -/
def signed (negative : Bool) (n : Nat) : Int := if negative then -(n : Int) else n

/-- The sign in front of a text, and what follows it. -/
def takeSign : Text → Bool × Text
  | [] => (false, [])
  | c :: rest =>
    if c = ofChar '-' then (true, rest)
    else if c = ofChar '+' then (false, rest)
    else (false, c :: rest)

theorem takeSign_suffix (t : Text) : (takeSign t).2 <:+ t := by
  cases t with
  | nil => exact List.suffix_refl _
  | cons c t =>
    rw [takeSign]
    repeat' split
    · exact List.suffix_cons ..
    · exact List.suffix_cons ..
    · exact List.suffix_refl _

/-- The exponent at the end of a decimal: nothing, or a letter `e` and a signed number. -/
def parseExponent? : Text → Option Int
  | [] => some 0
  | c :: rest =>
    if c.toLower = ofChar 'e' then
      let (negative, digits) := takeSign rest
      if digits ≠ [] ∧ digits.all CodePoint.isDigit then some (signed negative digits.toNat)
      else none
    else none

/-- A decimal without its sign: digits, at most one point among or beside them, an exponent. -/
def parseDecimal? (negative : Bool) (t : Text) : Option Binary64 :=
  let whole := t.takeWhile CodePoint.isDigit
  let rest := t.dropWhile CodePoint.isDigit
  let (fraction, rest) := match rest with
    | c :: rest' =>
      if c = ofChar '.' then
        (rest'.takeWhile CodePoint.isDigit, rest'.dropWhile CodePoint.isDigit)
      else ([], rest)
    | [] => ([], [])
  if whole = [] ∧ fraction = [] then none
  else (parseExponent? rest).map fun e =>
    ofDecimal negative (Text.toNat (whole ++ fraction)) (e - fraction.length)

/-- The number that a text writes: a decimal, or a word for one of the numbers that have none,
in any case of letters. Blanks around the number and underscores within it are skipped. -/
def parse? (t : Text) : Option Binary64 :=
  let (negative, rest) := takeSign (t.strip.filter (· != ofChar '_'))
  let word := rest.lower
  if word = Text.ofString "nan" then some nan
  else if word = Text.ofString "inf" ∨ word = Text.ofString "infinity" then
    some (infinite negative)
  else parseDecimal? negative rest

end Binary64

end SampleTypes
