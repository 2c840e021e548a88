import JobGraph.Number.Shortest
import Mathlib.Algebra.Order.Field.Power
import Mathlib.Data.Rat.Cast.Order
import Mathlib.Tactic.FieldSimp
import Mathlib.Tactic.Linarith
import Mathlib.Tactic.NormNum
import Mathlib.Tactic.Positivity
import Mathlib.Tactic.Ring

/-!
# Rounding to the nearest number

A finite magnitude owns an interval around its exact value (`Owns`); the ends belong to it when the
significand is even.  Rounding a quotient gives the magnitude that owns it
(`magnitudeOfRatio_of_owns`), and a decimal that a magnitude owns is read as that magnitude
(`ofDecimal_of_owns`), whatever its digits and its power of ten are.
-/

namespace JobGraph.Binary64

/-! ## Bits -/

theorem ofMagnitude_magnitudeBits (x : Binary64) :
    ofMagnitude x.isNegative x.magnitudeBits = x := by
  obtain ⟨bits⟩ := x
  have bound : bits.toNat < 2 ^ 64 := bits.toNat_lt
  have same : (bits.toNat % 2 ^ 63 + if decide (2 ^ 63 ≤ bits.toNat) then 2 ^ 63 else 0) =
      bits.toNat := by
    by_cases sign : 2 ^ 63 ≤ bits.toNat
    · rw [if_pos (decide_eq_true sign)]
      omega
    · rw [if_neg (by simpa using sign)]
      omega
  unfold ofMagnitude isNegative magnitudeBits
  dsimp only
  rw [show twoTo 63 = 2 ^ 63 from rfl, same, UInt64.ofNat_toNat]

/-! ## Powers -/

theorem twoTo_eq (exponent : Nat) : twoTo exponent = 2 ^ exponent := rfl

theorem tenTo_eq (exponent : Nat) : tenTo exponent = 10 ^ exponent := rfl

theorem fractionSize_eq : twoTo fractionBits = 2 ^ 52 := rfl

theorem infinityBits_eq : infinityBits = 2047 * 2 ^ 52 := rfl

theorem two_zpow_pos (exponent : Int) : (0 : ℚ) < 2 ^ exponent := zpow_pos (by norm_num) _

theorem ten_zpow_pos (exponent : Int) : (0 : ℚ) < 10 ^ exponent := zpow_pos (by norm_num) _

theorem two_zpow_add (first second : Int) : (2 : ℚ) ^ (first + second) = 2 ^ first * 2 ^ second :=
  zpow_add₀ (by norm_num) _ _

theorem lt_of_two_zpow_lt {first second : Int} (less : (2 : ℚ) ^ first < 2 ^ second) :
    first < second :=
  (zpow_lt_zpow_iff_right₀ (by norm_num)).1 less

theorem cast_twoTo_toNat {exponent : Int} (sign : 0 ≤ exponent) :
    ((twoTo exponent.toNat : Nat) : ℚ) = 2 ^ exponent := by
  rw [twoTo_eq, Nat.cast_pow, Nat.cast_ofNat, ← zpow_natCast, Int.toNat_of_nonneg sign]

theorem cast_tenTo_toNat {exponent : Int} (sign : 0 ≤ exponent) :
    ((tenTo exponent.toNat : Nat) : ℚ) = 10 ^ exponent := by
  rw [tenTo_eq, Nat.cast_pow, Nat.cast_ofNat, ← zpow_natCast, Int.toNat_of_nonneg sign]

/-- A quotient is scaled by a power of two in its denominator or in its numerator. -/
theorem exists_scaled {α : Type} (f : Nat → Nat → α) (numerator : Nat) {denominator : Nat}
    (positive : 0 < denominator) (scale : Int) :
    ∃ top bottom : Nat, 0 < bottom ∧ (top : ℚ) / bottom = numerator / denominator / 2 ^ scale ∧
      (if 0 ≤ scale then f numerator (denominator * twoTo scale.toNat)
        else f (numerator * twoTo (-scale).toNat) denominator) = f top bottom := by
  have power := two_zpow_pos scale
  by_cases sign : 0 ≤ scale
  · refine ⟨numerator, denominator * twoTo scale.toNat, ?_, ?_, if_pos sign⟩
    · exact Nat.mul_pos positive (Nat.two_pow_pos _)
    · rw [Nat.cast_mul, cast_twoTo_toNat sign, div_div]
  · refine ⟨numerator * twoTo (-scale).toNat, denominator, positive, ?_, if_neg sign⟩
    rw [Nat.cast_mul, cast_twoTo_toNat (by omega), zpow_neg]
    field_simp

/-! ## The nearest whole number -/

/-- The whole number is the nearest to `x`, or one of two nearest and even. -/
def IsNearest (n : Nat) (x : ℚ) : Prop :=
  (n : ℚ) - 1 / 2 ≤ x ∧ x ≤ n + 1 / 2 ∧ (x = n - 1 / 2 ∨ x = n + 1 / 2 → n % 2 = 0)

/-- Twice the numerator lies in an interval of twice the denominator, and at an end of it only if
the whole number is even. -/
private theorem IsNearest.bounds {numerator denominator n : Nat} (positive : 0 < denominator)
    (nearest : IsNearest n (numerator / denominator)) :
    2 * (n * denominator) ≤ 2 * numerator + denominator ∧
      2 * numerator ≤ 2 * (n * denominator) + denominator ∧
      (2 * (n * denominator) = 2 * numerator + denominator ∨
        2 * numerator = 2 * (n * denominator) + denominator → n % 2 = 0) := by
  have positive' : (0 : ℚ) < denominator := by exact_mod_cast positive
  obtain ⟨low, high, even⟩ := nearest
  rw [le_div_iff₀ positive'] at low
  rw [div_le_iff₀ positive'] at high
  refine ⟨?_, ?_, ?_⟩
  · have : (2 * (n * denominator) : ℚ) ≤ 2 * numerator + denominator := by linarith
    exact_mod_cast this
  · have : (2 * numerator : ℚ) ≤ 2 * (n * denominator) + denominator := by linarith
    exact_mod_cast this
  · rintro (same | same)
    · have same' : (2 * (n * denominator) : ℚ) = 2 * numerator + denominator := by
        exact_mod_cast same
      refine even (Or.inl ?_)
      rw [div_eq_iff positive'.ne']
      linarith
    · have same' : (2 * numerator : ℚ) = 2 * (n * denominator) + denominator := by
        exact_mod_cast same
      refine even (Or.inr ?_)
      rw [div_eq_iff positive'.ne']
      linarith

theorem roundDiv_of_isNearest {numerator denominator n : Nat} (positive : 0 < denominator)
    (nearest : IsNearest n (numerator / denominator)) : roundDiv numerator denominator = n := by
  obtain ⟨low, high, even⟩ := nearest.bounds positive
  have parts := Nat.div_add_mod numerator denominator
  have rest := Nat.mod_lt numerator positive
  unfold roundDiv
  generalize numerator / denominator = whole at parts ⊢
  generalize numerator % denominator = remainder at parts rest ⊢
  rw [Nat.mul_comm] at parts
  -- The nearest whole number is the quotient or the one after it, and the remainder tells which.
  have between : n = whole ∨ n = whole + 1 := by
    have notBelow : whole < n + 1 := by
      by_contra below
      have := Nat.mul_le_mul_right denominator (Nat.not_lt.1 below)
      rw [Nat.add_mul, Nat.one_mul] at this
      omega
    have notAbove : n < whole + 2 := by
      by_contra above
      have := Nat.mul_le_mul_right denominator (Nat.not_lt.1 above)
      rw [Nat.add_mul] at this
      omega
    omega
  rcases between with same | same <;> subst same
  · dsimp only
    split
    · rfl
    · split <;> omega
  · rw [Nat.add_mul, Nat.one_mul] at low high even
    dsimp only
    split
    · omega
    · split <;> omega

/-! ## The scale of a quotient -/

theorem two_pow_log2_le {n : Nat} (positive : 0 < n) : (2 : ℚ) ^ (n.log2 : Int) ≤ n := by
  rw [zpow_natCast]
  exact_mod_cast Nat.log2_self_le positive.ne'

theorem lt_two_pow_log2 (n : Nat) : (n : ℚ) < 2 ^ ((n.log2 : Int) + 1) := by
  have bound : n < 2 ^ (n.log2 + 1) := Nat.lt_log2_self
  have same : ((n.log2 : Int) + 1) = ((n.log2 + 1 : Nat) : Int) := by omega
  rw [same, zpow_natCast]
  exact_mod_cast bound

/-- The binary logarithms of the parts of a quotient tell it up to a factor of four. -/
theorem quotient_bounds {numerator denominator : Nat} (top : 0 < numerator)
    (bottom : 0 < denominator) :
    (2 : ℚ) ^ ((numerator.log2 : Int) - denominator.log2 - 1) < numerator / denominator ∧
      (numerator / denominator : ℚ) < 2 ^ ((numerator.log2 : Int) - denominator.log2 + 1) := by
  have bottom' : (0 : ℚ) < denominator := by exact_mod_cast bottom
  have lowTop := two_pow_log2_le top
  have highTop := lt_two_pow_log2 numerator
  have lowBottom := two_pow_log2_le bottom
  have highBottom := lt_two_pow_log2 denominator
  rw [lt_div_iff₀ bottom', div_lt_iff₀ bottom']
  constructor
  · calc (2 : ℚ) ^ ((numerator.log2 : Int) - denominator.log2 - 1) * denominator
        < 2 ^ ((numerator.log2 : Int) - denominator.log2 - 1) *
            2 ^ ((denominator.log2 : Int) + 1) :=
          mul_lt_mul_of_pos_left highBottom (two_zpow_pos _)
      _ = 2 ^ (numerator.log2 : Int) := by rw [← two_zpow_add]; congr 1; omega
      _ ≤ numerator := lowTop
  · calc (numerator : ℚ) < 2 ^ ((numerator.log2 : Int) + 1) := highTop
      _ = 2 ^ ((numerator.log2 : Int) - denominator.log2 + 1) * 2 ^ (denominator.log2 : Int) := by
          rw [← two_zpow_add]; congr 1; omega
      _ ≤ 2 ^ ((numerator.log2 : Int) - denominator.log2 + 1) * denominator :=
          mul_le_mul_of_nonneg_left lowBottom (two_zpow_pos _).le

/-- In units of its scale a quotient has at most fifty-three binary places, and exactly that many
unless the scale is the least one. -/
theorem scaleOf_spec {numerator denominator : Nat} (top : 0 < numerator)
    (bottom : 0 < denominator) :
    -1074 ≤ scaleOf numerator denominator ∧
      (numerator / denominator : ℚ) < 2 ^ (scaleOf numerator denominator + 53) ∧
      (scaleOf numerator denominator = -1074 ∨
        (2 : ℚ) ^ (scaleOf numerator denominator + 52) ≤ numerator / denominator) := by
  obtain ⟨low, high⟩ := quotient_bounds top bottom
  unfold scaleOf
  set guess := max (-1074 : Int) ((numerator.log2 : Int) - denominator.log2 - 52) with guessed
  obtain ⟨upper, lower, positive, scaled, whole⟩ :=
    exists_scaled (fun upper lower => upper / lower) numerator bottom guess
  dsimp only at whole ⊢
  rw [whole]
  have short : upper / lower < twoTo fractionBits ↔
      (numerator / denominator : ℚ) < 2 ^ (guess + 52) := by
    have positive' : (0 : ℚ) < lower := by exact_mod_cast positive
    rw [fractionSize_eq, Nat.div_lt_iff_lt_mul positive, two_zpow_add,
      ← div_lt_iff₀' (two_zpow_pos guess), ← scaled, div_lt_iff₀ positive']
    norm_cast
  have ends : (numerator / denominator : ℚ) < 2 ^ (guess + 53) :=
    lt_of_lt_of_le high (zpow_le_zpow_right₀ (by norm_num) (by omega))
  -- The logarithms leave two candidates, and the whole part of the quotient in units of the larger
  -- one tells which it is.
  split
  next both =>
    obtain ⟨small, above⟩ := both
    refine ⟨by omega, ?_, Or.inr ?_⟩
    · have sum : guess - 1 + 53 = guess + 52 := by omega
      rw [sum]
      exact short.1 small
    · have sum : guess - 1 + 52 = (numerator.log2 : Int) - denominator.log2 - 1 := by omega
      rw [sum]
      exact low.le
  next other =>
    refine ⟨by omega, ends, ?_⟩
    by_cases least : guess = -1074
    · exact Or.inl least
    · right
      have notShort : ¬upper / lower < twoTo fractionBits := fun small => other ⟨small, by omega⟩
      exact not_lt.1 (mt short.2 notShort)

/-! ## What a magnitude owns -/

theorem exponent_ge (magnitude : Nat) : -1074 ≤ exponent magnitude := by
  unfold exponent
  omega

theorem mantissa_lt (magnitude : Nat) : mantissa magnitude < 2 ^ 53 := by
  have rest := Nat.mod_lt magnitude (Nat.two_pow_pos 52)
  unfold mantissa
  rw [fractionSize_eq]
  split <;> omega

theorem mantissa_of_exponent (magnitude : Nat) (above : -1074 < exponent magnitude) :
    mantissa magnitude = magnitude % 2 ^ 52 + 2 ^ 52 := by
  unfold exponent at above
  unfold mantissa
  rw [fractionSize_eq, if_neg (by omega)]

/-- A magnitude is put together from its significand and its exponent. -/
theorem magnitude_eq (magnitude : Nat) :
    mantissa magnitude + (exponent magnitude + 1074).toNat * 2 ^ 52 = magnitude := by
  unfold mantissa exponent exponentField
  rw [fractionSize_eq]
  split <;> omega

/-- The exact value of a finite magnitude. -/
def valueOf (magnitude : Nat) : ℚ := mantissa magnitude * 2 ^ exponent magnitude

/-- How far down the interval of a magnitude reaches, in units of its last place: below a power of
two the places are half as wide. -/
def reach (magnitude : Nat) : ℚ :=
  if magnitude % twoTo fractionBits = 0 ∧ 1 < exponentField magnitude then 1 / 4 else 1 / 2

theorem reach_cases (magnitude : Nat) :
    (reach magnitude = 1 / 4 ∧ mantissa magnitude = 2 ^ 52 ∧ -1074 < exponent magnitude) ∨
      (reach magnitude = 1 / 2 ∧ (mantissa magnitude ≠ 2 ^ 52 ∨ exponent magnitude = -1074)) := by
  unfold reach
  split
  next narrow =>
    have above : -1074 < exponent magnitude := by
      unfold exponent
      omega
    refine Or.inl ⟨rfl, ?_, above⟩
    rw [mantissa_of_exponent magnitude above, ← fractionSize_eq, narrow.1, Nat.zero_add]
  next wide =>
    refine Or.inr ⟨rfl, ?_⟩
    by_cases above : -1074 < exponent magnitude
    · left
      intro same
      rw [mantissa_of_exponent magnitude above] at same
      refine wide ⟨by rw [fractionSize_eq]; omega, ?_⟩
      unfold exponent at above
      omega
    · right
      have := exponent_ge magnitude
      omega

theorem reach_le_half (magnitude : Nat) : reach magnitude ≤ 1 / 2 := by
  rcases reach_cases magnitude with ⟨same, _⟩ | ⟨same, _⟩ <;> rw [same]
  norm_num

/-- The interval of the rational numbers that are rounded to a magnitude. -/
structure Owns (magnitude : Nat) (value : ℚ) : Prop where
  low : (mantissa magnitude - reach magnitude) * 2 ^ exponent magnitude ≤ value
  high : value ≤ (mantissa magnitude + 1 / 2) * 2 ^ exponent magnitude
  ends : value = (mantissa magnitude - reach magnitude) * 2 ^ exponent magnitude ∨
    value = (mantissa magnitude + 1 / 2) * 2 ^ exponent magnitude → mantissa magnitude % 2 = 0

namespace Owns

variable {magnitude numerator denominator : Nat} {value : ℚ}

/-- In units of the magnitude's own last place the significand is the nearest whole number. -/
theorem isNearest (owns : Owns magnitude value) :
    IsNearest (mantissa magnitude) (value / 2 ^ exponent magnitude) := by
  have positive := two_zpow_pos (exponent magnitude)
  have reached := reach_le_half magnitude
  have low := owns.low
  have high := owns.high
  rw [← le_div_iff₀ positive] at low
  rw [← div_le_iff₀ positive] at high
  refine ⟨by linarith, high, ?_⟩
  rintro (same | same)
  · refine owns.ends (Or.inl ?_)
    rw [← div_eq_iff positive.ne']
    linarith
  · refine owns.ends (Or.inr ?_)
    rw [← div_eq_iff positive.ne', same]

/-- The scale of an owned quotient is the exponent of the magnitude, or one less just below a power
of two. -/
theorem scale_cases (owns : Owns magnitude (numerator / denominator)) (top : 0 < numerator)
    (bottom : 0 < denominator) :
    scaleOf numerator denominator = exponent magnitude ∨
      scaleOf numerator denominator = exponent magnitude - 1 ∧ mantissa magnitude = 2 ^ 52 ∧
        (numerator / denominator : ℚ) < 2 ^ (exponent magnitude + 52) := by
  obtain ⟨least, short, long⟩ := scaleOf_spec top bottom
  have small : ((mantissa magnitude : ℚ)) + 1 ≤ 2 ^ 53 := by exact_mod_cast mantissa_lt magnitude
  have notAbove : scaleOf numerator denominator ≤ exponent magnitude := by
    rcases long with same | long
    · rw [same]
      exact exponent_ge magnitude
    · have bound : (2 : ℚ) ^ (scaleOf numerator denominator + 52) < 2 ^ (exponent magnitude + 53) :=
        calc (2 : ℚ) ^ (scaleOf numerator denominator + 52) ≤ numerator / denominator := long
          _ ≤ (mantissa magnitude + 1 / 2) * 2 ^ exponent magnitude := owns.high
          _ < 2 ^ 53 * 2 ^ exponent magnitude :=
              mul_lt_mul_of_pos_right (by linarith) (two_zpow_pos _)
          _ = 2 ^ (exponent magnitude + 53) := by
              rw [two_zpow_add, mul_comm]
              norm_cast
      have := lt_of_two_zpow_lt bound
      omega
  by_cases same : scaleOf numerator denominator = exponent magnitude
  · exact Or.inl same
  right
  -- A quotient of a smaller scale lies below the power of two, and only the magnitude at that power
  -- reaches so far down.
  have below : (numerator / denominator : ℚ) < 2 ^ (exponent magnitude + 52) :=
    lt_of_lt_of_le short (zpow_le_zpow_right₀ (by norm_num) (by omega))
  have split : (2 : ℚ) ^ (exponent magnitude + 52) = 2 ^ 52 * 2 ^ exponent magnitude := by
    rw [two_zpow_add, mul_comm]
    norm_cast
  have significant : mantissa magnitude = 2 ^ 52 := by
    have full := mantissa_of_exponent magnitude (by omega)
    have low := lt_of_le_of_lt owns.low (split ▸ below)
    have less := lt_of_mul_lt_mul_right low (two_zpow_pos _).le
    have reached := reach_le_half magnitude
    have : (mantissa magnitude : ℚ) < 2 ^ 52 + 1 := by linarith
    have : mantissa magnitude < 2 ^ 52 + 1 := by exact_mod_cast this
    omega
  refine ⟨?_, significant, below⟩
  have bound : (2 : ℚ) ^ (exponent magnitude + 51) < 2 ^ (scaleOf numerator denominator + 53) :=
    calc (2 : ℚ) ^ (exponent magnitude + 51) = 2 ^ 51 * 2 ^ exponent magnitude := by
          rw [two_zpow_add, mul_comm]
          norm_cast
      _ ≤ (mantissa magnitude - reach magnitude) * 2 ^ exponent magnitude := by
          refine mul_le_mul_of_nonneg_right ?_ (two_zpow_pos _).le
          rw [significant]
          rcases reach_cases magnitude with ⟨same, _⟩ | ⟨same, _⟩ <;> rw [same] <;> norm_num
      _ ≤ numerator / denominator := owns.low
      _ < _ := short
  have := lt_of_two_zpow_lt bound
  omega

/-- One place below a power of two, twice the significand is the nearest whole number. -/
theorem isNearest_below (owns : Owns magnitude value) (significant : mantissa magnitude = 2 ^ 52)
    (above : -1074 < exponent magnitude) (below : value < 2 ^ (exponent magnitude + 52)) :
    IsNearest (2 ^ 53) (value / 2 ^ (exponent magnitude - 1)) := by
  have halved : (2 : ℚ) ^ exponent magnitude = 2 * 2 ^ (exponent magnitude - 1) := by
    rw [mul_comm, ← zpow_add_one₀ (by norm_num), sub_add_cancel]
  have narrow : reach magnitude = 1 / 4 := by
    rcases reach_cases magnitude with ⟨same, _⟩ | ⟨_, other | least⟩
    · exact same
    · exact absurd significant other
    · omega
  have low := owns.low
  have split : (2 : ℚ) ^ (exponent magnitude + 52) = 2 ^ 53 * 2 ^ (exponent magnitude - 1) := by
    have sum : exponent magnitude + 52 = exponent magnitude - 1 + 53 := by omega
    rw [sum, two_zpow_add, mul_comm]
    norm_cast
  have positive := two_zpow_pos (exponent magnitude - 1)
  rw [split, ← div_lt_iff₀ positive] at below
  rw [significant, narrow, halved, ← mul_assoc, ← le_div_iff₀ positive] at low
  refine ⟨?_, ?_, fun _ => rfl⟩
  · push_cast at low ⊢
    linarith
  · push_cast
    linarith

end Owns

/-! ## Reading quotients and decimals -/

theorem mantissa_pos {magnitude : Nat} (positive : 0 < magnitude) : 0 < mantissa magnitude := by
  unfold mantissa exponentField
  rw [fractionSize_eq]
  split <;> omega

theorem exponent_le {magnitude : Nat} (finite : magnitude < infinityBits) :
    exponent magnitude ≤ 971 := by
  rw [infinityBits_eq] at finite
  unfold exponent exponentField
  rw [fractionSize_eq]
  omega

/-- No finite magnitude but zero owns a very small number, and none a very large one. -/
theorem Owns.within {magnitude : Nat} {value : ℚ} (owns : Owns magnitude value)
    (positive : 0 < magnitude) (finite : magnitude < infinityBits) :
    (2 : ℚ) ^ (-1075 : Int) ≤ value ∧ value < 2 ^ (1024 : Int) := by
  have some : (1 : ℚ) ≤ mantissa magnitude := by exact_mod_cast mantissa_pos positive
  have short : (mantissa magnitude : ℚ) + 1 ≤ 2 ^ 53 := by exact_mod_cast mantissa_lt magnitude
  have reached := reach_le_half magnitude
  constructor
  · calc (2 : ℚ) ^ (-1075 : Int) = 2 ^ (-1 : Int) * 2 ^ (-1074 : Int) := by
          rw [← two_zpow_add]
          norm_num
      _ = 1 / 2 * 2 ^ (-1074 : Int) := by rw [zpow_neg_one, one_div]
      _ ≤ (mantissa magnitude - reach magnitude) * 2 ^ exponent magnitude := by
          refine mul_le_mul (by linarith) ?_ (two_zpow_pos _).le (by linarith)
          exact zpow_le_zpow_right₀ (by norm_num) (exponent_ge magnitude)
      _ ≤ value := owns.low
  · calc value ≤ (mantissa magnitude + 1 / 2) * 2 ^ exponent magnitude := owns.high
      _ < 2 ^ 53 * 2 ^ exponent magnitude := mul_lt_mul_of_pos_right (by linarith) (two_zpow_pos _)
      _ ≤ 2 ^ 53 * 2 ^ (971 : Int) := by
          refine mul_le_mul_of_nonneg_left ?_ (by norm_num)
          exact zpow_le_zpow_right₀ (by norm_num) (exponent_le finite)
      _ = 2 ^ (1024 : Int) := by
          rw [← zpow_natCast, ← two_zpow_add]
          rfl

/-- Rounding a quotient gives the magnitude that owns it. -/
theorem magnitudeOfRatio_of_owns {magnitude numerator denominator : Nat}
    (finite : magnitude < infinityBits) (top : 0 < numerator) (bottom : 0 < denominator)
    (owns : Owns magnitude (numerator / denominator)) :
    magnitudeOfRatio numerator denominator = magnitude := by
  obtain ⟨upper, lower, positive, scaled, whole⟩ :=
    exists_scaled roundDiv numerator bottom (scaleOf numerator denominator)
  have least := (scaleOf_spec top bottom).1
  have nonzero : numerator ≠ 0 := top.ne'
  unfold magnitudeOfRatio
  rw [if_neg nonzero]
  dsimp only
  rw [whole, fractionSize_eq]
  have parts := magnitude_eq magnitude
  rcases owns.scale_cases top bottom with same | ⟨stepped, significant, below⟩
  · have nearest := owns.isNearest
    rw [← same, ← scaled] at nearest
    rw [roundDiv_of_isNearest positive nearest, same, parts, Nat.min_eq_right finite.le]
  · -- The significand is rounded up to twice the power of two and carries into the exponent.
    have nearest := owns.isNearest_below significant (by omega) below
    rw [← stepped, ← scaled] at nearest
    have carried : 2 ^ 53 + (exponent magnitude - 1 + 1074).toNat * 2 ^ 52 = magnitude := by omega
    rw [roundDiv_of_isNearest positive nearest, stepped, carried, Nat.min_eq_right finite.le]

/-- The exact value of digits with a power of ten. -/
def decimalValue (digits : Nat) (power : Int) : ℚ := digits * 10 ^ power

/-- The binary places of a decimal with a power of ten that is not negative. -/
private theorem two_zpow_le_decimalValue {digits : Nat} (positive : 0 < digits) {power : Int}
    (sign : 0 ≤ power) :
    (2 : ℚ) ^ ((digits.log2 : Int) + 3 * power) ≤ decimalValue digits power := by
  have eighth : (2 : ℚ) ^ (3 * power) ≤ 10 ^ power := by
    obtain ⟨n, rfl⟩ := Int.eq_ofNat_of_zero_le sign
    have cubed : (2 : ℚ) ^ (3 * (n : Int)) = 8 ^ n := by
      rw [zpow_mul, zpow_natCast]
      norm_num
    rw [cubed, zpow_natCast]
    exact pow_le_pow_left₀ (by norm_num) (by norm_num) n
  rw [two_zpow_add]
  exact mul_le_mul (two_pow_log2_le positive) eighth (two_zpow_pos _).le (Nat.cast_nonneg _)

/-- The binary places of a decimal with a negative power of ten. -/
private theorem decimalValue_lt_two_zpow (digits : Nat) {power : Int} (sign : power < 0) :
    decimalValue digits power < 2 ^ ((digits.log2 : Int) + 1 + 3 * power) := by
  have eighth : (10 : ℚ) ^ power ≤ 2 ^ (3 * power) := by
    obtain ⟨n, same⟩ := Int.eq_ofNat_of_zero_le (a := -power) (by omega)
    have negative : power = -(n : Int) := by omega
    have cubed : (2 : ℚ) ^ (3 * power) = (8 ^ n)⁻¹ := by
      rw [negative, zpow_mul, zpow_neg, zpow_natCast]
      norm_num
    rw [cubed, negative, zpow_neg, zpow_natCast]
    exact inv_anti₀ (by positivity) (pow_le_pow_left₀ (by norm_num) (by norm_num) n)
  rw [two_zpow_add]
  exact mul_lt_mul (lt_two_pow_log2 digits) eighth (ten_zpow_pos _) (two_zpow_pos _).le

/-- A decimal is read as the magnitude that owns it, also where the power of ten is not computed. -/
theorem ofDecimal_of_owns {magnitude digits : Nat} {power : Int} (negative : Bool)
    (positive : 0 < magnitude) (finite : magnitude < infinityBits) (some : 0 < digits)
    (owns : Owns magnitude (decimalValue digits power)) :
    ofDecimal negative digits power = ofMagnitude negative magnitude := by
  obtain ⟨low, high⟩ := owns.within positive finite
  unfold ofDecimal ofRatio
  rw [if_neg some.ne']
  dsimp only
  by_cases sign : 0 ≤ power
  · have small := lt_of_two_zpow_lt (lt_of_le_of_lt (two_zpow_le_decimalValue some sign) high)
    rw [if_pos sign, if_neg (by omega)]
    rw [decimalValue, ← cast_tenTo_toNat sign, ← Nat.cast_mul,
      ← div_one ((digits * tenTo power.toNat : Nat) : ℚ), ← Nat.cast_one] at owns
    have nonzero : 0 < digits * tenTo power.toNat :=
      Nat.mul_pos some (Nat.pow_pos (by decide))
    rw [magnitudeOfRatio_of_owns finite nonzero Nat.one_pos owns]
  · have large :=
      lt_of_two_zpow_lt (lt_of_le_of_lt low (decimalValue_lt_two_zpow digits (by omega)))
    rw [if_neg sign, if_neg (by omega)]
    have inverse : decimalValue digits power = digits / ((tenTo (-power).toNat : Nat) : ℚ) := by
      rw [decimalValue, cast_tenTo_toNat (by omega), zpow_neg, div_inv_eq_mul]
    rw [inverse] at owns
    have bottom : 0 < tenTo (-power).toNat := Nat.pow_pos (by decide)
    rw [magnitudeOfRatio_of_owns finite some bottom owns]

end JobGraph.Binary64
