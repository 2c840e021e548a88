import JobGraph.Proofs.Job.Times

/-!
# Numbers of seconds

A number is looked at by its bits.  By its value, it is within a bound exactly if it is finite and
its value is (`Settings.isWithin_iff`), and such a number of seconds is a length of time exactly if
it is less than two to the power of sixty-four (`Duration.ofSeconds?_isSome_iff`): rounding to
nanoseconds never leads across that limit.
-/

namespace JobGraph

namespace Binary64

/-- The exact value of a finite number. -/
def toRat (x : Binary64) : ℚ :=
  if x.isNegative then -valueOf x.magnitudeBits else valueOf x.magnitudeBits

theorem valueOf_nonneg (magnitude : Nat) : 0 ≤ valueOf magnitude :=
  mul_nonneg (Nat.cast_nonneg _) (two_zpow_pos _).le

theorem valueOf_pos_iff {magnitude : Nat} : 0 < valueOf magnitude ↔ 0 < magnitude := by
  constructor
  · intro positive
    rw [Nat.pos_iff_ne_zero]
    rintro rfl
    have nothing : valueOf 0 = 0 := by
      rw [valueOf, show mantissa 0 = 0 from rfl, Nat.cast_zero, zero_mul]
    exact positive.ne' nothing
  · intro positive
    exact mul_pos (Nat.cast_pos.2 (mantissa_pos positive)) (two_zpow_pos _)

theorem isZero_iff {x : Binary64} : x.isZero = true ↔ ¬0 < valueOf x.magnitudeBits := by
  rw [valueOf_pos_iff, isZero, beq_iff_eq]
  omega

theorem toRat_pos_iff {x : Binary64} :
    0 < x.toRat ↔ x.isNegative = false ∧ x.isZero = false := by
  have nonneg := valueOf_nonneg x.magnitudeBits
  rw [← Bool.not_eq_true x.isZero, isZero_iff, not_not]
  unfold toRat
  cases x.isNegative with
  | true => simpa using nonneg
  | false => simp

theorem toRat_nonneg_iff {x : Binary64} :
    0 ≤ x.toRat ↔ x.isZero = true ∨ x.isNegative = false := by
  have nonneg := valueOf_nonneg x.magnitudeBits
  rw [isZero_iff]
  unfold toRat
  cases x.isNegative with
  | true => simp
  | false => simpa using nonneg

/-- A magnitude from two to the power of sixty-four on is a whole number. -/
theorem exponent_nonneg_of_large {magnitude : Nat} (large : 2 ^ 64 ≤ valueOf magnitude) :
    0 ≤ exponent magnitude := by
  by_contra negative
  have short : (mantissa magnitude : ℚ) < 2 ^ 53 := by exact_mod_cast mantissa_lt magnitude
  have scale : (2 : ℚ) ^ exponent magnitude ≤ 1 := zpow_le_one_of_nonpos₀ (by norm_num) (by omega)
  have small : valueOf magnitude ≤ mantissa magnitude := by
    exact mul_le_of_le_one_right (Nat.cast_nonneg _) scale
  have apart : (2 : ℚ) ^ 53 < 2 ^ 64 := by norm_num
  linarith

end Binary64

/-! ## Bounds -/

/-- What a bound asks of a value. -/
def Bound.Admits : Bound → ℚ → Prop
  | .positive, value => 0 < value
  | .nonNegative, value => 0 ≤ value

theorem Settings.isWithin_iff {bound : Bound} {value : Binary64} :
    Settings.isWithin bound value = true ↔ value.isFinite = true ∧ bound.Admits value.toRat := by
  unfold isWithin
  rw [Bool.and_eq_true]
  cases bound with
  | positive => simp [Bound.Admits, Binary64.toRat_pos_iff]
  | nonNegative => simp [Bound.Admits, Binary64.toRat_nonneg_iff]

/-! ## Lengths of time -/

namespace Duration

open Binary64 (valueOf)

theorem roundSeconds_le_iff (magnitude : Nat) :
    roundSeconds magnitude ≤ maximum.nanoseconds ↔ valueOf magnitude < 2 ^ 64 := by
  have small := Binary64.mantissa_lt magnitude
  have longest : maximum.nanoseconds = 2 ^ 64 * 1000000000 - 1 := rfl
  rw [longest, roundSeconds, nanosecondsPerSecond]
  by_cases sign : 0 ≤ Binary64.exponent magnitude
  · -- The number is whole, and so is the number of nanoseconds.
    have whole : valueOf magnitude =
        (Binary64.mantissa magnitude * twoTo (Binary64.exponent magnitude).toNat : Nat) := by
      rw [valueOf, Nat.cast_mul, Binary64.cast_twoTo_toNat sign]
    have limit : valueOf magnitude < 2 ^ 64 ↔
        Binary64.mantissa magnitude * twoTo (Binary64.exponent magnitude).toNat < 2 ^ 64 := by
      rw [whole]
      exact_mod_cast Iff.rfl
    rw [limit, Binary64.ratio, if_pos sign]
    dsimp only
    rw [Binary64.roundDiv_one]
    omega
  · -- The number is less than the first significand that is too long, far below the limit.
    have below : valueOf magnitude < 2 ^ 64 := by
      by_contra large
      exact sign (Binary64.exponent_nonneg_of_large (not_lt.1 large))
    refine iff_of_true ?_ below
    rw [Binary64.ratio, if_neg sign]
    dsimp only
    have rounded := Binary64.roundDiv_le (Binary64.mantissa magnitude * 1000000000)
      (twoTo (-Binary64.exponent magnitude).toNat)
    have divided := Nat.div_le_self (Binary64.mantissa magnitude * 1000000000)
      (twoTo (-Binary64.exponent magnitude).toNat)
    omega

/-- A number of seconds that is not negative is a length of time if its whole seconds fit sixty-four
bits. -/
theorem ofSeconds?_isSome_iff {seconds : Binary64} (finite : seconds.isFinite = true)
    (nonneg : 0 ≤ seconds.toRat) : (ofSeconds? seconds).isSome = true ↔ seconds.toRat < 2 ^ 64 := by
  have sign := Binary64.toRat_nonneg_iff.1 nonneg
  have above : seconds.isBelowZero = false := by
    rcases sign with zero | positive
    · rw [Binary64.isBelowZero, zero, Bool.not_true, Bool.and_false, Bool.false_and]
    · rw [Binary64.isBelowZero, positive, Bool.false_and, Bool.false_and]
  have value : seconds.toRat < 2 ^ 64 ↔ valueOf seconds.magnitudeBits < 2 ^ 64 := by
    rcases sign with zero | positive
    · have nothing : valueOf seconds.magnitudeBits = 0 :=
        le_antisymm (not_lt.1 (Binary64.isZero_iff.1 zero)) (Binary64.valueOf_nonneg _)
      rw [Binary64.toRat, nothing, neg_zero, ite_self]
    · rw [Binary64.toRat, positive, if_neg Bool.false_ne_true]
  rw [value, ← roundSeconds_le_iff, ofSeconds?, finite, above, if_neg (by simp)]
  dsimp only
  by_cases fits : roundSeconds seconds.magnitudeBits ≤ maximum.nanoseconds <;> simp [fits]

end Duration

end JobGraph
