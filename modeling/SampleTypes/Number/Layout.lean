import SampleTypes.Number.Shortest

/-!
# Layout of numbers

A floating-point number is written with its shortest digits, positionally when its magnitude is
moderate and with an exponent of ten otherwise. Where the border lies, and how the exponent,
whole numbers and the numbers without digits look, is the decision of a `Layout`.

## Main definitions

* `Layout` — the decisions
* `Layout.write` — the text of a number
-/

namespace SampleTypes

/-- How a floating-point number is laid out. -/
structure Layout where
  /-- Positional when more than this many places, counted from the point, stand before the
  first digit: a negative number counts zeros after the point. -/
  minPoint : Int
  /-- Positional when at most this many places stand before the point. -/
  maxPoint : Int
  /-- Least number of digits in an exponent. -/
  exponentWidth : Nat
  /-- What follows a whole number in positional form. -/
  wholeEnd : Text
  nan : Text
  infinity : Text
  deriving DecidableEq, Repr

namespace Layout

/-- The digits with zeros in front up to a width. -/
def padded (width n : Nat) : Text :=
  let digits := Text.ofNat n
  List.replicate (width - digits.length) (ofChar '0') ++ digits

/-- Digits with the point after the given number of places. -/
def positional (l : Layout) (digits : Text) (point : Int) : Text :=
  if point ≤ 0 then
    Text.ofString "0." ++ List.replicate (-point).toNat (ofChar '0') ++ digits
  else
    let places := point.toNat
    if places < digits.length then digits.take places ++ ofChar '.' :: digits.drop places
    else digits ++ List.replicate (places - digits.length) (ofChar '0') ++ l.wholeEnd

/-- Digits with the point after the first, and an exponent of ten. -/
def scientific (l : Layout) (digits : Text) (point : Int) : Text :=
  let fraction := digits.drop 1
  -- The first digit stands before the point, so one place is taken off the exponent.
  let e := point - 1
  digits.take 1 ++ (if fraction = [] then [] else ofChar '.' :: fraction)
    ++ [ofChar 'e', ofChar (if e < 0 then '-' else '+')] ++ padded l.exponentWidth e.natAbs

/-- Digits and an exponent of ten. -/
def decimal (l : Layout) (digits : Nat) (exponent : Int) : Text :=
  let text := Text.ofNat digits
  let point := exponent + text.length
  if l.minPoint < point ∧ point ≤ l.maxPoint then l.positional text point
  else l.scientific text point

/-- A number without its sign. -/
def magnitude (l : Layout) : Binary64 → Text
  | .nan => l.nan
  | .infinite _ => l.infinity
  | .finite _ 0 _ => ofChar '0' :: l.wholeEnd
  | .finite _ m e =>
    let (digits, exponent) := Binary64.shortest m e
    l.decimal digits exponent

/-- Whether a number is written with a minus sign. -/
def isNegative : Binary64 → Bool
  | .nan => false
  | .infinite negative => negative
  | .finite negative _ _ => negative

/-- The text of a number. -/
def write (l : Layout) (x : Binary64) : Text :=
  if isNegative x then ofChar '-' :: l.magnitude x else l.magnitude x

/-- The layout of numbers as words: positional from `0.0001` to below `10 ^ 16`, whole numbers
with a zero after the point, exponents of at least two digits. -/
def word : Layout where
  minPoint := -4
  maxPoint := 16
  exponentWidth := 2
  wholeEnd := Text.ofString ".0"
  nan := Text.ofString "nan"
  infinity := Text.ofString "inf"

end Layout

end SampleTypes
