import SampleTypes.Number.Binary64

/-!
# Shortest digits

The shortest decimal of a floating-point number is the one with the fewest digits among those
that read back as the number; of several it is the nearest to it. The decimals with few digits
are the multiples of a large power of ten, so the search goes through the powers of ten from
the largest down and stops at the first with a multiple that reads back.

## Main definitions

* `Binary64.Interval` — the decimals that read back as a number
* `Binary64.shortest` — digits and exponent of ten of the shortest decimal
-/

namespace SampleTypes.Binary64

/-- The decimals between two bounds. Bounds and value are numerators over one denominator. -/
structure Interval where
  low : Nat
  value : Nat
  high : Nat
  den : Nat
  /-- Whether the two bounds belong to the interval. -/
  closed : Bool
  deriving DecidableEq, Repr

/-- The decimals that read back as `mantissa · 2 ^ exponent`: they reach half way to the
neighbours, and the half way points belong to the even number. Below a power of two the
neighbour is nearer. -/
def Interval.around (mantissa : Nat) (exponent : Int) : Interval :=
  -- Four times the number and a quarter of the unit keep all half way points whole.
  let below := if mantissa = Nat.pow 2 52 ∧ minExponent < exponent then 1 else 2
  let (low, den) := scaled (4 * mantissa - below) 2 (exponent - 2)
  { low, den
    value := (scaled (4 * mantissa) 2 (exponent - 2)).1
    high := (scaled (4 * mantissa + 2) 2 (exponent - 2)).1
    closed := mantissa % 2 = 0 }

/-- Whether the decimal `digits · 10 ^ exponent` lies in the interval. -/
def Interval.contains (i : Interval) (digits : Nat) (exponent : Int) : Bool :=
  let (num, den) := scaled digits 10 exponent
  let x := num * i.den
  if i.closed then i.low * den ≤ x && x ≤ i.high * den
  else i.low * den < x && x < i.high * den

/-- The nearest to the value of those multiples of a power of ten that lie in the interval. Of
two equally near ones the even one is taken. -/
def Interval.nearest? (i : Interval) (exponent : Int) : Option Nat :=
  let (ten, den) := scaled 1 10 exponent
  let unit := ten * i.den
  let value := i.value * den
  let d := value / unit
  match i.contains d exponent, i.contains (d + 1) exponent with
  | true, true =>
    let twice := 2 * (value % unit)
    some (if twice < unit then d else if unit < twice then d + 1 else d + d % 2)
  | true, false => some d
  | false, true => some (d + 1)
  | false, false => none

/-- No number reaches ten to this power. -/
def maxPower : Int := 310

/-- From the largest power of ten that can matter down to the smallest. -/
def powers : List Int := (List.range 640).map fun i : Nat => maxPower - i

/-- Digits and exponent of ten of the shortest decimal that reads back. -/
def shortest (mantissa : Nat) (exponent : Int) : Nat × Int :=
  let i := Interval.around mantissa exponent
  (powers.findSome? fun e => (i.nearest? e).map fun d => (d, e)).getD (0, 0)

end SampleTypes.Binary64
