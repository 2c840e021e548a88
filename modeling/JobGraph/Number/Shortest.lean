import JobGraph.Number.Binary64

/-!
# The shortest decimal that reads back

A finite number owns an interval of reals that round to it; its ends belong to it when the
significand is even.  `shortest` looks for the decimal with the fewest digits in that interval and,
among those with equally many, for the nearest to the number.  On a grid of decimals only the two
neighbours of the number can be nearest, so two candidates are tried for each count of digits.
-/

namespace JobGraph.Binary64

/-- The digits `digits` stand for `digits * 10 ^ power`. -/
structure Decimal where
  digits : Nat
  power : Int
  deriving DecidableEq, Repr

/-- The interval of reals that round to a magnitude, in units of a common quarter step:
`low / denominator ≤ value / denominator ≤ high / denominator`. -/
structure Interval where
  low : Nat
  value : Nat
  high : Nat
  denominator : Nat
  closed : Bool

/-- The interval of a positive finite magnitude.  Below a power of two the step is half as wide. -/
def intervalOf (magnitude : Nat) : Interval :=
  let significand := mantissa magnitude
  let scale := exponent magnitude - 2
  let factor := if 0 ≤ scale then twoTo scale.toNat else 1
  let belowPower := magnitude % twoTo fractionBits = 0 ∧ 1 < exponentField magnitude
  { low := (4 * significand - if belowPower then 1 else 2) * factor
    value := 4 * significand * factor
    high := (4 * significand + 2) * factor
    denominator := if 0 ≤ scale then 1 else twoTo (-scale).toNat
    closed := significand % 2 = 0 }

/-- Whether `digits * 10 ^ power` lies in the interval. -/
def Interval.contains (interval : Interval) (decimal : Decimal) : Bool :=
  let (scaled, unit) :=
    if 0 ≤ decimal.power then
      (decimal.digits * tenTo decimal.power.toNat * interval.denominator, 1)
    else (decimal.digits * interval.denominator, tenTo (-decimal.power).toNat)
  if interval.closed then interval.low * unit ≤ scaled ∧ scaled ≤ interval.high * unit
  else interval.low * unit < scaled ∧ scaled < interval.high * unit

/-- The nearest decimal of the grid `10 ^ power` that lies in the interval, if any does. -/
def Interval.nearest? (interval : Interval) (power : Int) : Option Decimal :=
  let (scaled, unit) :=
    if 0 ≤ power then (interval.value, interval.denominator * tenTo power.toNat)
    else (interval.value * tenTo (-power).toNat, interval.denominator)
  let below : Decimal := ⟨scaled / unit, power⟩
  let above : Decimal := ⟨scaled / unit + 1, power⟩
  let rest := 2 * (scaled % unit)
  let preferBelow := rest < unit ∨ rest = unit ∧ below.digits % 2 = 0
  let (first, second) := if preferBelow then (below, above) else (above, below)
  if first.digits ≠ 0 ∧ interval.contains first then some first
  else if second.digits ≠ 0 ∧ interval.contains second then some second
  else none

/-- The number of decimal places before the point of `value / denominator`: the least `places` with
`value / denominator < 10 ^ places`, searched downwards from a bound. -/
def placesBelow (value denominator : Nat) : Nat → Int → Int
  | 0, places => places
  | steps + 1, places =>
    let lower := places - 1
    let reached :=
      if 0 ≤ lower then denominator * tenTo lower.toNat ≤ value
      else denominator ≤ value * tenTo (-lower).toNat
    if reached then places else placesBelow value denominator steps lower

def searchDigits (interval : Interval) (places : Int) : Nat → Nat → Option Decimal
  | 0, _ => none
  | steps + 1, count =>
    match interval.nearest? (places - count) with
    | some decimal => some decimal
    | none => searchDigits interval places steps (count + 1)

/-- Moves zeros at the end of the digits into the power of ten. -/
def Decimal.trim (decimal : Decimal) : Nat → Decimal
  | 0 => decimal
  | steps + 1 =>
    if decimal.digits ≠ 0 ∧ decimal.digits % 10 = 0 then
      Decimal.trim ⟨decimal.digits / 10, decimal.power + 1⟩ steps
    else decimal

/-- The shortest decimal that rounds to a finite magnitude, with no zero at its end.  Seventeen
digits always suffice. -/
def shortest (magnitude : Nat) : Decimal :=
  if magnitude = 0 then ⟨0, 0⟩
  else
    let interval := intervalOf magnitude
    let bound := (((interval.value.log2 : Int) - interval.denominator.log2 + 1) * 3 / 10) + 2
    let places := placesBelow interval.value interval.denominator 6 bound
    ((searchDigits interval places 17 1).getD ⟨0, 0⟩).trim 17

end JobGraph.Binary64
