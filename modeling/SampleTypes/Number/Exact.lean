import SampleTypes.Number.Layout

/-!
# Exact and composite numbers

Decimals that keep their trailing zeros, fractions in lowest terms, and complex numbers. A
sample that is such a number has the type of a number like any other; its text matters where it
names a field.

## Main definitions

* `Decimal`, `Decimal.parse?`, `Decimal.write`
* `Fraction`, `Fraction.parse?`, `Fraction.write`
* `Complex`, `Complex.parse?`, `Complex.write`
-/

namespace SampleTypes

open Binary64 (takeSign parseExponent? signed)

/-- A decimal number `± coefficient · 10 ^ exponent`, an infinity, or no number. -/
inductive Decimal where
  /-- No number, of the kind that signals when it is used or of the quiet one; `payload` tells
  why. -/
  | nan (negative signals : Bool) (payload : Nat)
  | infinite (negative : Bool)
  | finite (negative : Bool) (coefficient : Nat) (exponent : Int)
  deriving DecidableEq, Repr

namespace Decimal

/-- The digits before and after the point of a decimal, and what follows them. -/
def takeDigits (t : Text) : Text × Text × Text :=
  let whole := t.takeWhile CodePoint.isDigit
  match t.dropWhile CodePoint.isDigit with
  | c :: rest =>
    if c = ofChar '.' then
      (whole, rest.takeWhile CodePoint.isDigit, rest.dropWhile CodePoint.isDigit)
    else (whole, [], c :: rest)
  | [] => (whole, [], [])

/-- The word for no number, of either kind, and the digits after it. -/
def parseNan? (negative : Bool) (word : Text) : Option Decimal :=
  let payload? (digits : Text) : Option Nat :=
    if digits.all CodePoint.isDigit then some digits.toNat else none
  match Text.after? (Text.ofString "nan") word, Text.after? (Text.ofString "snan") word with
  | some digits, _ => (payload? digits).map (nan negative false)
  | none, some digits => (payload? digits).map (nan negative true)
  | none, none => none

/-- The decimal that a text writes. -/
def parse? (t : Text) : Option Decimal :=
  let (negative, rest) := takeSign (t.strip.filter (· != ofChar '_'))
  let word := rest.lower
  if let some x := parseNan? negative word then some x
  else if word = Text.ofString "inf" ∨ word = Text.ofString "infinity" then
    some (infinite negative)
  else
    let (whole, fraction, rest) := takeDigits rest
    if whole = [] ∧ fraction = [] then none
    else (parseExponent? rest).map fun e =>
      finite negative (Text.toNat (whole ++ fraction)) (e - fraction.length)

/-- The digits are written positionally when none is left of the units and at most five zeros
stand between the point and the first of them, else with an exponent of ten. -/
def magnitude (coefficient : Nat) (exponent : Int) : Text :=
  let digits := Text.ofNat coefficient
  -- The number of places before the point; zeros right after it count as negative ones.
  let left := exponent + digits.length
  let point := if exponent ≤ 0 ∧ -6 < left then left else 1
  let body :=
    if point ≤ 0 then Text.ofString "0." ++ List.replicate (-point).toNat (ofChar '0') ++ digits
    else if point.toNat < digits.length then
      digits.take point.toNat ++ ofChar '.' :: digits.drop point.toNat
    else digits ++ List.replicate (point.toNat - digits.length) (ofChar '0')
  if left = point then body
  else
    let e := left - point
    body ++ [ofChar 'E', ofChar (if e < 0 then '-' else '+')] ++ Text.ofNat e.natAbs

/-- The text of a decimal. -/
def write : Decimal → Text
  | nan negative signals payload =>
    sign negative ++ Text.ofString (if signals then "sNaN" else "NaN")
      ++ if payload = 0 then [] else Text.ofNat payload
  | infinite negative => sign negative ++ Text.ofString "Infinity"
  | finite negative c e => sign negative ++ magnitude c e
where
  /-- The sign in front. -/
  sign (negative : Bool) : Text := if negative then [ofChar '-'] else []

end Decimal

/-- A fraction in lowest terms. -/
structure Fraction where
  num : Int
  den : Nat
  deriving DecidableEq, Repr

namespace Fraction

/-- A ratio in lowest terms. -/
def reduce (num : Int) (den : Nat) : Fraction :=
  let g := Nat.gcd num.natAbs den
  ⟨num / (g : Int), den / g⟩

/-- The fraction that a text writes: two whole numbers about a stroke, or a decimal. -/
def parse? (t : Text) : Option Fraction :=
  let (negative, rest) := takeSign t.strip
  match rest.splitAt? (ofChar '/') with
  | some (n, d) => some (reduce (signed negative n.toNat) d.toNat)
  | none =>
    match Decimal.parse? rest with
    | some (.finite _ c e) =>
      let (num, den) := scaled c 10 e
      some (reduce (signed negative num) den)
    | _ => none

/-- A whole number is written without a stroke. -/
def write (x : Fraction) : Text :=
  if x.den = 1 then Text.ofInt x.num
  else Text.ofInt x.num ++ ofChar '/' :: Text.ofNat x.den

/-- The fraction as a pair of numbers. -/
def writePair (x : Fraction) : Text :=
  Text.ofString "Fraction(" ++ Text.ofInt x.num ++ Text.ofString ", " ++ Text.ofNat x.den
    ++ [ofChar ')']

end Fraction

/-- A complex number. -/
structure Complex where
  re : Binary64
  im : Binary64
  deriving DecidableEq, Repr

namespace Complex

/-- The parts are written like words, but whole numbers without a point. -/
def layout : Layout := { Layout.word with wholeEnd := [] }

/-- The length of the real part: up to the last sign that opens no exponent and is not the first
code point. -/
def realLength (t : Text) : Nat :=
  let isSplit (i : Nat) : Bool :=
    (t[i]? == some (ofChar '+') || t[i]? == some (ofChar '-'))
      && t[i - 1]?.map CodePoint.toLower != some (ofChar 'e')
  ((List.range t.length).reverse.find? fun i => i != 0 && isSplit i).getD 0

/-- What stands between parentheses, if the text is in parentheses. -/
def withoutParentheses (t : Text) : Text :=
  match t, t.getLast? with
  | c :: rest, some d =>
    if c = ofChar '(' ∧ d = ofChar ')' then Text.strip rest.dropLast else t
  | _, _ => t

/-- The number before `j`, which is one where only a sign or nothing is written. -/
def imaginary? (t : Text) : Option Binary64 :=
  if t = [] ∨ t = [ofChar '+'] then Binary64.parse? [ofChar '1']
  else if t = [ofChar '-'] then Binary64.parse? (Text.ofString "-1")
  else Binary64.parse? t

/-- The complex number that a text writes: a real part, an imaginary part ending in `j`, or
both. -/
def parse? (t : Text) : Option Complex :=
  let t := withoutParentheses t.strip
  match t.reverse with
  | [] => none
  | last :: front =>
    if last.toLower = ofChar 'j' then
      let body := front.reverse
      -- Without a sign in the middle, all of it is imaginary.
      let n := realLength body
      let re := if n = 0 then some (zero false) else Binary64.parse? (body.take n)
      match re, imaginary? (body.drop n) with
      | some re, some im => some ⟨re, im⟩
      | _, _ => none
    else (Binary64.parse? t).map fun re => ⟨re, zero false⟩
where
  /-- The part that is not written. -/
  zero (negative : Bool) : Binary64 := Binary64.zero negative

/-- A number without a real part is written by its imaginary part alone, any other in
parentheses. -/
def write (z : Complex) : Text :=
  let im := layout.write z.im ++ [ofChar 'j']
  if z.re = Binary64.zero false then im
  else
    let sign := if Layout.isNegative z.im then [] else [ofChar '+']
    ofChar '(' :: (layout.write z.re ++ sign ++ im ++ [ofChar ')'])

end Complex

end SampleTypes
