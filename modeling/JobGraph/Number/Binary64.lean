import JobGraph.Number.Power

/-!
# Binary floating point numbers by their bits

A number is its 64-bit pattern: a sign, eleven exponent bits and fifty-two fraction bits.  A finite
number is `mantissa * 2 ^ exponent`, both read off the pattern, so every operation here is exact
arithmetic on natural numbers.

* `ofRatio` is the number nearest to a quotient, a tie going to the even pattern.
* `ofDecimal` does the same for digits and a power of ten.
-/

namespace JobGraph

/-- A double precision number, given by its bit pattern. -/
structure Binary64 where
  bits : UInt64
  deriving DecidableEq, Repr

namespace Binary64

/-- The number of bits that hold the fraction. -/
def fractionBits : Nat := 52

/-- The pattern of positive infinity; the finite magnitudes lie below it. -/
def infinityBits : Nat := 2047 * twoTo fractionBits

/-- The pattern without its sign bit. -/
def magnitudeBits (x : Binary64) : Nat := x.bits.toNat % twoTo 63

def isNegative (x : Binary64) : Bool := twoTo 63 ≤ x.bits.toNat

def isFinite (x : Binary64) : Bool := x.magnitudeBits < infinityBits

def isNaN (x : Binary64) : Bool := infinityBits < x.magnitudeBits

def isZero (x : Binary64) : Bool := x.magnitudeBits == 0

/-- Whether the number is less than zero; neither zero nor a NaN is. -/
def isBelowZero (x : Binary64) : Bool := x.isNegative && !x.isZero && !x.isNaN

/-- The stored exponent field of a magnitude; zero marks a subnormal number. -/
def exponentField (magnitude : Nat) : Nat := magnitude / twoTo fractionBits

/-- The integer significand of a finite magnitude. -/
def mantissa (magnitude : Nat) : Nat :=
  magnitude % twoTo fractionBits + if exponentField magnitude = 0 then 0 else twoTo fractionBits

/-- The power of two that belongs to `mantissa`. -/
def exponent (magnitude : Nat) : Int :=
  (max (exponentField magnitude) 1 : Nat) - 1075

/-- The number with the given sign and magnitude pattern. -/
def ofMagnitude (negative : Bool) (magnitude : Nat) : Binary64 :=
  ⟨UInt64.ofNat (magnitude + if negative then twoTo 63 else 0)⟩

def zero : Binary64 := ofMagnitude false 0

def infinity (negative : Bool) : Binary64 := ofMagnitude negative infinityBits

def nan : Binary64 := ofMagnitude false (infinityBits + twoTo 51)

/-- A quotient rounded to the nearest integer, a half going to the even neighbour. -/
def roundDiv (numerator denominator : Nat) : Nat :=
  let whole := numerator / denominator
  let twice := 2 * (numerator % denominator)
  if twice < denominator then whole
  else if denominator < twice then whole + 1
  else whole + whole % 2

/-- The exponent of the last bit kept for `numerator / denominator`: the quotient by that power of
two has fifty-three bits, or fewer where the subnormal range ends. -/
def scaleOf (numerator denominator : Nat) : Int :=
  let guess := max (-1074 : Int) ((numerator.log2 : Int) - denominator.log2 - 52)
  let whole :=
    if 0 ≤ guess then numerator / (denominator * twoTo guess.toNat)
    else numerator * twoTo (-guess).toNat / denominator
  if whole < twoTo fractionBits ∧ -1074 < guess then guess - 1 else guess

/-- The magnitude pattern nearest to `numerator / denominator`; at most that of infinity. -/
def magnitudeOfRatio (numerator denominator : Nat) : Nat :=
  if numerator = 0 then 0
  else
    let scale := scaleOf numerator denominator
    let rounded :=
      if 0 ≤ scale then roundDiv numerator (denominator * twoTo scale.toNat)
      else roundDiv (numerator * twoTo (-scale).toNat) denominator
    min infinityBits (rounded + (scale + 1074).toNat * twoTo fractionBits)

def ofRatio (negative : Bool) (numerator denominator : Nat) : Binary64 :=
  ofMagnitude negative (magnitudeOfRatio numerator denominator)

/-- The number nearest to `digits * 10 ^ power`.  A power of ten has more than three times as many
binary places, so a number that is infinite or zero by far is told without computing the power. -/
def ofDecimal (negative : Bool) (digits : Nat) (power : Int) : Binary64 :=
  if digits = 0 then ofMagnitude negative 0
  else
    let size := (digits.log2 : Int) + 3 * power
    if 0 ≤ power then
      if 1100 < size then infinity negative
      else ofRatio negative (digits * tenTo power.toNat) 1
    else if size < -1100 then ofMagnitude negative 0
    else ofRatio negative digits (tenTo (-power).toNat)

def ofInt (n : Int) : Binary64 := ofRatio (n < 0) n.natAbs 1

/-- The exact value of a finite magnitude as a quotient of natural numbers. -/
def ratio (magnitude : Nat) : Nat × Nat :=
  let scale := exponent magnitude
  if 0 ≤ scale then (mantissa magnitude * twoTo scale.toNat, 1)
  else (mantissa magnitude, twoTo (-scale).toNat)

end Binary64

end JobGraph
