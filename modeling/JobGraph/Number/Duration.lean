import JobGraph.Number.Binary64

/-!
# Lengths of time

A length of time is a number of nanoseconds whose whole seconds fit sixty-four bits.  Seconds given
as a floating point number are rounded to the nearest nanosecond, a half going to the even one.
-/

namespace JobGraph

/-- A length of time in nanoseconds. -/
structure Duration where
  nanoseconds : Nat
  deriving DecidableEq, Repr

namespace Duration

def nanosecondsPerSecond : Nat := 1000000000

def maximum : Duration := ⟨twoTo 64 * nanosecondsPerSecond - 1⟩

def zero : Duration := ⟨0⟩

def ofMilliseconds (n : Nat) : Duration := ⟨n * 1000000⟩

def ofSeconds (n : Nat) : Duration := ⟨n * nanosecondsPerSecond⟩

def parts (d : Duration) : Nat × Nat :=
  (d.nanoseconds / nanosecondsPerSecond, d.nanoseconds % nanosecondsPerSecond)

/-- The nanosecond nearest to a finite magnitude of seconds. -/
def roundSeconds (magnitude : Nat) : Nat :=
  let (numerator, denominator) := Binary64.ratio magnitude
  Binary64.roundDiv (numerator * nanosecondsPerSecond) denominator

/-- The length of time of a number of seconds: none when it is negative, not finite or too long. -/
def ofSeconds? (seconds : Binary64) : Option Duration :=
  if !seconds.isFinite || seconds.isBelowZero then none
  else
    let rounded := roundSeconds seconds.magnitudeBits
    if rounded ≤ maximum.nanoseconds then some ⟨rounded⟩ else none

/-- The number of seconds: the whole seconds and the part of a second are rounded each for itself,
and then their sum. -/
def toSeconds (d : Duration) : Binary64 :=
  let (whole, rest) := d.parts
  let (numerator, denominator) := Binary64.ratio (Binary64.ofInt whole).magnitudeBits
  let (partNumerator, partDenominator) :=
    Binary64.ratio (Binary64.ofRatio false rest nanosecondsPerSecond).magnitudeBits
  .ofRatio false (numerator * partDenominator + partNumerator * denominator)
    (denominator * partDenominator)

/-- Like `ofSeconds?`, with the nearest end of the range where that has no answer: nothing for what
is not a positive number, and the longest length of time for what is too long. -/
def saturating (seconds : Binary64) : Duration :=
  if seconds.isNaN || seconds.isZero || seconds.isNegative then zero
  else (ofSeconds? seconds).getD maximum

end Duration

end JobGraph
