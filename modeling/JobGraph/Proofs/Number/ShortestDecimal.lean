import JobGraph.Proofs.Number.Rounding

/-!
# Shortest decimals read back

The decimal that `shortest` finds lies in the interval of its magnitude (`shortest_owned`), so it is
read as that magnitude.  Seventeen digits suffice because the grid of the last one is narrower than
the interval: the number has at most fifty-three binary places, and `2 ^ 53 < 10 ^ 16`.
-/

namespace JobGraph.Binary64

def Decimal.value (decimal : Decimal) : ℚ := decimalValue decimal.digits decimal.power

/-! ## Intervals -/

section Interval

variable {interval : Interval}

/-- The value of a decimal in units of a denominator, as the quotient that is compared. -/
private theorem exists_compared (decimal : Decimal) (denominator : Nat) :
    ∃ scaled unit : Nat, 0 < unit ∧ (scaled : ℚ) / unit = decimal.value * denominator ∧
      (if 0 ≤ decimal.power then (decimal.digits * tenTo decimal.power.toNat * denominator, 1)
        else (decimal.digits * denominator, tenTo (-decimal.power).toNat)) = (scaled, unit) := by
  by_cases sign : 0 ≤ decimal.power
  · refine ⟨_, _, Nat.one_pos, ?_, if_pos sign⟩
    rw [Nat.cast_one, div_one, Nat.cast_mul, Nat.cast_mul, cast_tenTo_toNat sign]
    rfl
  · have some : 0 < tenTo (-decimal.power).toNat := Nat.pow_pos (by decide)
    refine ⟨_, _, some, ?_, if_neg sign⟩
    rw [Nat.cast_mul, cast_tenTo_toNat (by omega), zpow_neg, div_inv_eq_mul, Decimal.value,
      decimalValue]
    ring

/-- What a decimal has to satisfy for an interval to contain it. -/
theorem Interval.contains_iff (positive : 0 < interval.denominator) (decimal : Decimal) :
    interval.contains decimal = true ↔
      if interval.closed then
        (interval.low : ℚ) / interval.denominator ≤ decimal.value ∧
          decimal.value ≤ interval.high / interval.denominator
      else
        (interval.low : ℚ) / interval.denominator < decimal.value ∧
          decimal.value < interval.high / interval.denominator := by
  obtain ⟨scaled, unit, some, same, compared⟩ := exists_compared decimal interval.denominator
  have positive' : (0 : ℚ) < interval.denominator := by exact_mod_cast positive
  have some' : (0 : ℚ) < unit := by exact_mod_cast some
  unfold Interval.contains
  rw [compared]
  dsimp only
  rw [div_le_iff₀ positive', le_div_iff₀ positive', div_lt_iff₀ positive', lt_div_iff₀ positive',
    ← same, le_div_iff₀ some', div_le_iff₀ some', lt_div_iff₀ some', div_lt_iff₀ some']
  split <;> rw [decide_eq_true_iff] <;> norm_cast

/-- A decimal strictly between the ends lies in the interval, whether it is closed or open. -/
theorem Interval.contains_of_between (positive : 0 < interval.denominator) {decimal : Decimal}
    (low : (interval.low : ℚ) / interval.denominator < decimal.value)
    (high : decimal.value < interval.high / interval.denominator) :
    interval.contains decimal = true := by
  rw [Interval.contains_iff positive]
  split
  · exact ⟨low.le, high.le⟩
  · exact ⟨low, high⟩

/-- What is nearest on a grid lies in the interval and is not zero. -/
theorem Interval.contains_of_nearest? {power : Int} {decimal : Decimal}
    (nearest : interval.nearest? power = some decimal) :
    decimal.digits ≠ 0 ∧ interval.contains decimal = true := by
  have chosen : ∀ first second : Decimal,
      (if first.digits ≠ 0 ∧ interval.contains first then some first
        else if second.digits ≠ 0 ∧ interval.contains second then some second else none) =
          some decimal →
        decimal.digits ≠ 0 ∧ interval.contains decimal = true := by
    intro first second found
    split at found
    next both => exact Option.some.inj found ▸ both
    next =>
      split at found
      next both => exact Option.some.inj found ▸ both
      next => exact absurd found (by simp)
  exact chosen _ _ nearest

/-- The value of an interval in units of a grid, as the quotient that is cut. -/
private theorem exists_cut (positive : 0 < interval.denominator) (power : Int) :
    ∃ scaled unit : Nat, 0 < unit ∧
      (scaled : ℚ) = interval.value / interval.denominator / 10 ^ power * unit ∧
      (if 0 ≤ power then (interval.value, interval.denominator * tenTo power.toNat)
        else (interval.value * tenTo (-power).toNat, interval.denominator)) = (scaled, unit) := by
  have positive' : (interval.denominator : ℚ) ≠ 0 := by exact_mod_cast positive.ne'
  have grid := (ten_zpow_pos power).ne'
  by_cases sign : 0 ≤ power
  · have some : 0 < tenTo power.toNat := Nat.pow_pos (by decide)
    refine ⟨_, _, Nat.mul_pos positive some, ?_, if_pos sign⟩
    rw [Nat.cast_mul, cast_tenTo_toNat sign]
    field_simp
  · refine ⟨_, _, positive, ?_, if_neg sign⟩
    rw [Nat.cast_mul, cast_tenTo_toNat (by omega), zpow_neg]
    field_simp

/-- On a grid that is narrower than the distance from the value to the nearer end some decimal lies
in the interval. -/
theorem Interval.isSome_nearest? (positive : 0 < interval.denominator) {power : Int}
    (low : (interval.low : ℚ) / interval.denominator <
      interval.value / interval.denominator - 10 ^ power / 2)
    (high : interval.value / interval.denominator + 10 ^ power / 2 <
      (interval.high : ℚ) / interval.denominator) :
    (interval.nearest? power).isSome := by
  obtain ⟨scaled, unit, some, same, cut⟩ := exists_cut positive power
  have some' : (0 : ℚ) < unit := by exact_mod_cast some
  have grid := ten_zpow_pos power
  unfold Interval.nearest?
  rw [cut]
  dsimp only
  have parts : (unit : ℚ) * (scaled / unit : Nat) + (scaled % unit : Nat) = scaled := by
    exact_mod_cast Nat.div_add_mod scaled unit
  have left : ((scaled % unit : Nat) : ℚ) < unit := by exact_mod_cast Nat.mod_lt scaled some
  generalize scaled / unit = whole at parts ⊢
  generalize scaled % unit = rest at parts left ⊢
  have value :
      (interval.value : ℚ) / interval.denominator = (whole + rest / unit) * 10 ^ power := by
    rw [← parts] at same
    field_simp at same ⊢
    linarith
  -- A whole number of steps that is at most half a step away lies in the interval.
  have chosen : ∀ count : Nat, (whole + rest / unit : ℚ) - 1 / 2 ≤ count →
      (count : ℚ) ≤ whole + rest / unit + 1 / 2 →
        count ≠ 0 ∧ interval.contains ⟨count, power⟩ = true := by
    intro count above below
    have atLeast := mul_le_mul_of_nonneg_right above grid.le
    have atMost := mul_le_mul_of_nonneg_right below grid.le
    rw [value] at low high
    have inside : (interval.low : ℚ) / interval.denominator < count * 10 ^ power ∧
        count * 10 ^ power < (interval.high : ℚ) / interval.denominator :=
      ⟨by linarith, by linarith⟩
    refine ⟨?_, Interval.contains_of_between positive inside.1 inside.2⟩
    rintro rfl
    have bottom : (0 : ℚ) ≤ interval.low / interval.denominator := by positivity
    rw [Nat.cast_zero, zero_mul] at inside
    exact absurd inside.1 (not_lt.2 bottom)
  by_cases preferBelow : 2 * rest < unit ∨ 2 * rest = unit ∧ whole % 2 = 0
  · have part : (0 : ℚ) ≤ rest / unit := by positivity
    have half : (rest : ℚ) / unit ≤ 1 / 2 := by
      have short : 2 * rest ≤ unit := by omega
      have short' : (2 * rest : ℚ) ≤ unit := by exact_mod_cast short
      rw [div_le_iff₀ some']
      linarith
    rw [if_pos preferBelow, if_pos (chosen whole (by linarith) (by linarith))]
    rfl
  · have part : (rest : ℚ) / unit ≤ 1 := by
      rw [div_le_one some']
      exact left.le
    have half : 1 / 2 ≤ (rest : ℚ) / unit := by
      have long : unit ≤ 2 * rest := by omega
      have long' : (unit : ℚ) ≤ 2 * rest := by exact_mod_cast long
      rw [le_div_iff₀ some']
      linarith
    rw [if_neg preferBelow, if_pos (chosen (whole + 1) (by push_cast; linarith)
      (by push_cast; linarith))]
    rfl

end Interval

/-! ## The interval of a magnitude -/

section Magnitude

variable {magnitude : Nat}

theorem denominator_pos (magnitude : Nat) : 0 < (intervalOf magnitude).denominator := by
  unfold intervalOf
  dsimp only
  split
  · exact Nat.one_pos
  · exact Nat.two_pow_pos _

/-- A number of quarter steps is that many quarters of the last place. -/
private theorem quarters_eq (quarters : Nat) (scale : Int) :
    ((quarters * (if 0 ≤ scale - 2 then twoTo (scale - 2).toNat else 1) : Nat) : ℚ) /
      ((if 0 ≤ scale - 2 then 1 else twoTo (-(scale - 2)).toNat : Nat) : ℚ) =
        quarters / 4 * 2 ^ scale := by
  have quarter : (2 : ℚ) ^ scale = 2 ^ (scale - 2) * 4 := by
    rw [zpow_sub₀ (by norm_num)]
    norm_num
  rw [quarter]
  by_cases sign : 0 ≤ scale - 2
  · rw [if_pos sign, if_pos sign, Nat.cast_one, div_one, Nat.cast_mul, cast_twoTo_toNat sign]
    ring
  · rw [if_neg sign, if_neg sign, Nat.mul_one, cast_twoTo_toNat (by omega), zpow_neg,
      div_inv_eq_mul]
    ring

theorem value_intervalOf (magnitude : Nat) :
    ((intervalOf magnitude).value : ℚ) / (intervalOf magnitude).denominator =
      valueOf magnitude := by
  have quarters := quarters_eq (4 * mantissa magnitude) (exponent magnitude)
  have whole : ((4 * mantissa magnitude : Nat) : ℚ) / 4 = mantissa magnitude := by
    push_cast
    ring
  rw [whole] at quarters
  exact quarters

theorem high_intervalOf (magnitude : Nat) :
    ((intervalOf magnitude).high : ℚ) / (intervalOf magnitude).denominator =
      (mantissa magnitude + 1 / 2) * 2 ^ exponent magnitude := by
  have quarters := quarters_eq (4 * mantissa magnitude + 2) (exponent magnitude)
  have whole : ((4 * mantissa magnitude + 2 : Nat) : ℚ) / 4 = mantissa magnitude + 1 / 2 := by
    push_cast
    ring
  rw [whole] at quarters
  exact quarters

theorem low_intervalOf (positive : 0 < magnitude) :
    ((intervalOf magnitude).low : ℚ) / (intervalOf magnitude).denominator =
      (mantissa magnitude - reach magnitude) * 2 ^ exponent magnitude := by
  have some := mantissa_pos positive
  have quarters := quarters_eq
    (4 * mantissa magnitude -
      if magnitude % twoTo fractionBits = 0 ∧ 1 < exponentField magnitude then 1 else 2)
    (exponent magnitude)
  have whole : ((4 * mantissa magnitude -
      if magnitude % twoTo fractionBits = 0 ∧ 1 < exponentField magnitude then 1 else 2 : Nat) :
        ℚ) / 4 = mantissa magnitude - reach magnitude := by
    unfold reach
    split
    · rw [Nat.cast_sub (by omega)]
      push_cast
      ring
    · rw [Nat.cast_sub (by omega)]
      push_cast
      ring
  rw [whole] at quarters
  exact quarters

theorem owns_of_contains (positive : 0 < magnitude) {decimal : Decimal}
    (contained : (intervalOf magnitude).contains decimal = true) :
    Owns magnitude decimal.value := by
  have closed : (intervalOf magnitude).closed = decide (mantissa magnitude % 2 = 0) := rfl
  rw [Interval.contains_iff (denominator_pos magnitude), low_intervalOf positive,
    high_intervalOf, closed] at contained
  split at contained
  next even => exact ⟨contained.1, contained.2, fun _ => of_decide_eq_true even⟩
  next =>
    refine ⟨contained.1.le, contained.2.le, ?_⟩
    rintro (same | same)
    · exact absurd same contained.1.ne'
    · exact absurd same contained.2.ne

/-- The interval reaches farther on either side than half of a grid that is finer, by sixteen
decimal places, than the number. -/
theorem isSome_nearest?_intervalOf (positive : 0 < magnitude) {power : Int}
    (fine : (10 : ℚ) ^ (power + 16) ≤ valueOf magnitude) :
    ((intervalOf magnitude).nearest? power).isSome := by
  have short : (mantissa magnitude : ℚ) < 2 ^ 53 := by exact_mod_cast mantissa_lt magnitude
  have unit := two_zpow_pos (exponent magnitude)
  have split : (10 : ℚ) ^ (power + 16) = 10 ^ power * 10 ^ 16 := by
    rw [zpow_add₀ (by norm_num)]
    norm_cast
  have narrow : (10 : ℚ) ^ power / 2 < reach magnitude * 2 ^ exponent magnitude := by
    rw [split, valueOf] at fine
    rcases reach_cases magnitude with ⟨reached, significant, _⟩ | ⟨reached, _⟩
    · rw [significant] at fine
      rw [reached]
      push_cast at fine
      linarith
    · have wide := mul_lt_mul_of_pos_right short unit
      rw [reached]
      linarith
  have wide := mul_le_mul_of_nonneg_right (reach_le_half magnitude) unit.le
  refine Interval.isSome_nearest? (denominator_pos magnitude) ?_ ?_
  · rw [low_intervalOf positive, value_intervalOf, valueOf]
    linarith
  · rw [high_intervalOf, value_intervalOf, valueOf]
    linarith

end Magnitude

/-! ## Places -/

/-- A search that starts no more than its steps above the number ends at a power of ten that is not
above it. -/
theorem le_of_placesBelow {value denominator : Nat} (positive : 0 < denominator) (steps : Nat)
    (places : Int) (near : (10 : ℚ) ^ (places - steps - 1) ≤ value / denominator) :
    (10 : ℚ) ^ (placesBelow value denominator steps places - 1) ≤ value / denominator := by
  induction steps generalizing places with
  | zero => simpa [placesBelow] using near
  | succ steps ih =>
    have reached_iff :
        (if 0 ≤ places - 1 then denominator * tenTo (places - 1).toNat ≤ value
          else denominator ≤ value * tenTo (-(places - 1)).toNat) ↔
            (10 : ℚ) ^ (places - 1) ≤ value / denominator := by
      have positive' : (0 : ℚ) < denominator := by exact_mod_cast positive
      by_cases sign : 0 ≤ places - 1
      · rw [if_pos sign, le_div_iff₀ positive', ← cast_tenTo_toNat sign, mul_comm]
        norm_cast
      · have grid := ten_zpow_pos (-(places - 1))
        have inverse : (10 : ℚ) ^ (places - 1) = ((10 : ℚ) ^ (-(places - 1)))⁻¹ := by
          rw [zpow_neg, inv_inv]
        rw [if_neg sign, le_div_iff₀ positive', inverse, inv_mul_le_iff₀ grid,
          ← cast_tenTo_toNat (by omega), mul_comm]
        norm_cast
    unfold placesBelow
    dsimp only
    by_cases reached : (10 : ℚ) ^ (places - 1) ≤ value / denominator
    · rw [if_pos (reached_iff.2 reached)]
      exact reached
    · rw [if_neg (mt reached_iff.1 reached)]
      refine ih (places - 1) ?_
      have sum : places - 1 - steps - 1 = places - (steps + 1 : Nat) - 1 := by omega
      rw [sum]
      exact near

/-- Three tenths of the binary places are decimal places that are not too many. -/
theorem ten_pow_le_two_pow (n : Nat) : 10 ^ (3 * n / 10) ≤ 2 ^ n := by
  have whole : 3 * n / 10 = 3 * (n / 10) + 3 * (n % 10) / 10 := by omega
  have parts : n = 10 * (n / 10) + n % 10 := by omega
  have small : ∀ rest < 10, 10 ^ (3 * rest / 10) ≤ 2 ^ rest := by decide
  calc 10 ^ (3 * n / 10) = (10 ^ 3) ^ (n / 10) * 10 ^ (3 * (n % 10) / 10) := by
        rw [whole, pow_add, pow_mul]
    _ ≤ (2 ^ 10) ^ (n / 10) * 2 ^ (n % 10) :=
        Nat.mul_le_mul (Nat.pow_le_pow_left (by decide) _) (small _ (Nat.mod_lt _ (by decide)))
    _ = 2 ^ n := by rw [← pow_mul, ← pow_add, ← parts]

/-- Three tenths of the binary places and two more are decimal places that suffice, as far as the
range of the exponents goes. -/
theorem two_pow_le_ten_pow : ∀ n < 1200, 2 ^ n ≤ 10 ^ ((3 * n + 9) / 10 + 2) := by
  decide +kernel

/-- The start of the search for the places lies at most three above the number. -/
theorem ten_zpow_le_two_zpow {n : Int} (bound : -1200 < n) :
    (10 : ℚ) ^ (n * 3 / 10 - 5) ≤ 2 ^ (n - 2) := by
  have weight : (2 : ℚ) ^ (n - 2) = 2 ^ n * (1 / 4) := by
    rw [zpow_sub₀ (by norm_num), div_eq_mul_one_div]
    norm_num
  rw [weight]
  have four : (10 : ℚ) ^ (-3 : Int) ≤ 1 / 4 := by norm_num
  have two : (10 : ℚ) ^ (n * 3 / 10 - 2) ≤ 2 ^ n := by
    by_cases sign : 0 ≤ n
    · obtain ⟨k, rfl⟩ := Int.eq_ofNat_of_zero_le sign
      have places : (k : Int) * 3 / 10 - 2 ≤ ((3 * k / 10 : Nat) : Int) := by omega
      calc (10 : ℚ) ^ ((k : Int) * 3 / 10 - 2) ≤ 10 ^ ((3 * k / 10 : Nat) : Int) :=
            zpow_le_zpow_right₀ (by norm_num) places
        _ ≤ 2 ^ (k : Int) := by
            rw [zpow_natCast, zpow_natCast]
            exact_mod_cast ten_pow_le_two_pow k
    · obtain ⟨k, same⟩ := Int.eq_ofNat_of_zero_le (a := -n) (by omega)
      have negative : n = -(k : Int) := by omega
      have places : n * 3 / 10 - 2 ≤ -(((3 * k + 9) / 10 + 2 : Nat) : Int) := by omega
      calc (10 : ℚ) ^ (n * 3 / 10 - 2) ≤ 10 ^ (-(((3 * k + 9) / 10 + 2 : Nat) : Int)) :=
            zpow_le_zpow_right₀ (by norm_num) places
        _ ≤ 2 ^ n := by
            rw [negative, zpow_neg, zpow_neg, zpow_natCast, zpow_natCast]
            refine inv_anti₀ (by positivity) ?_
            exact_mod_cast two_pow_le_ten_pow k (by omega)
  have sum : n * 3 / 10 - 5 = n * 3 / 10 - 2 + -3 := by omega
  rw [sum, zpow_add₀ (by norm_num)]
  exact mul_le_mul two four (ten_zpow_pos _).le (two_zpow_pos _).le

/-! ## The search -/

theorem searchDigits_of_isSome {interval : Interval} {places : Int} (steps count last : Nat)
    (fine : (interval.nearest? (places - last)).isSome) (reached : count ≤ last)
    (below : last < count + steps) :
    ∃ decimal, searchDigits interval places steps count = some decimal ∧ decimal.digits ≠ 0 ∧
      interval.contains decimal = true := by
  induction steps generalizing count with
  | zero => omega
  | succ steps ih =>
    unfold searchDigits
    cases found : interval.nearest? (places - count) with
    | some decimal => exact ⟨decimal, rfl, Interval.contains_of_nearest? found⟩
    | none =>
      have other : count ≠ last := by
        rintro rfl
        rw [found] at fine
        simp at fine
      exact ih (count + 1) (by omega) (by omega)

theorem Decimal.trim_value (decimal : Decimal) (steps : Nat) :
    (decimal.trim steps).value = decimal.value := by
  induction steps generalizing decimal with
  | zero => rfl
  | succ steps ih =>
    unfold Decimal.trim
    split
    next even =>
      rw [ih]
      unfold Decimal.value decimalValue
      dsimp only
      have whole : decimal.digits = decimal.digits / 10 * 10 := by omega
      have cast : (decimal.digits : ℚ) = (decimal.digits / 10 : Nat) * 10 := by
        exact_mod_cast whole
      rw [cast, zpow_add₀ (by norm_num), zpow_one]
      ring
    next => rfl

theorem Decimal.digits_trim_ne_zero (decimal : Decimal) (some : decimal.digits ≠ 0) (steps : Nat) :
    (decimal.trim steps).digits ≠ 0 := by
  induction steps generalizing decimal with
  | zero => exact some
  | succ steps ih =>
    unfold Decimal.trim
    split
    next even => exact ih ⟨decimal.digits / 10, _⟩ (by dsimp only; omega)
    next => exact some

/-- The shortest decimal of a magnitude lies in its interval. -/
theorem shortest_owned {magnitude : Nat} (positive : 0 < magnitude) :
    (shortest magnitude).digits ≠ 0 ∧ Owns magnitude (shortest magnitude).value := by
  unfold shortest
  rw [if_neg positive.ne']
  dsimp only
  set interval := intervalOf magnitude with named
  set size := (interval.value.log2 : Int) - interval.denominator.log2 + 1 with sized
  set places := placesBelow interval.value interval.denominator 6 (size * 3 / 10 + 2) with placed
  have value : (interval.value : ℚ) / interval.denominator = valueOf magnitude :=
    value_intervalOf magnitude
  have bottom : 0 < interval.denominator := denominator_pos magnitude
  have some : (1 : ℚ) ≤ mantissa magnitude := by exact_mod_cast mantissa_pos positive
  have top : 0 < interval.value := by
    have least : (0 : ℚ) < interval.value / interval.denominator := by
      rw [value]
      exact mul_pos (by linarith) (two_zpow_pos _)
    by_contra none
    have zero : interval.value = 0 := by omega
    rw [zero, Nat.cast_zero, zero_div] at least
    exact lt_irrefl _ least
  obtain ⟨low, high⟩ := quotient_bounds top bottom
  have bound : -1200 < size := by
    have least : (2 : ℚ) ^ (-1074 : Int) ≤ interval.value / interval.denominator := by
      rw [value, valueOf]
      calc (2 : ℚ) ^ (-1074 : Int) ≤ 2 ^ exponent magnitude :=
            zpow_le_zpow_right₀ (by norm_num) (exponent_ge magnitude)
        _ = 1 * 2 ^ exponent magnitude := (one_mul _).symm
        _ ≤ mantissa magnitude * 2 ^ exponent magnitude :=
            mul_le_mul_of_nonneg_right some (two_zpow_pos _).le
    have := lt_of_two_zpow_lt (lt_of_le_of_lt least high)
    omega
  have fine : (10 : ℚ) ^ (places - 1) ≤ valueOf magnitude := by
    rw [← value]
    refine le_of_placesBelow bottom 6 _ ?_
    have start : size * 3 / 10 + 2 - (6 : Nat) - 1 = size * 3 / 10 - 5 := by omega
    have near : size - 2 = (interval.value.log2 : Int) - interval.denominator.log2 - 1 := by omega
    rw [start]
    exact (ten_zpow_le_two_zpow bound).trans (near ▸ low.le)
  have enough : (interval.nearest? (places - (17 : Nat))).isSome := by
    refine isSome_nearest?_intervalOf positive ?_
    have sum : places - (17 : Nat) + 16 = places - 1 := by omega
    rw [sum]
    exact fine
  obtain ⟨decimal, found, nonzero, contained⟩ :=
    searchDigits_of_isSome 17 1 17 enough (by decide) (by decide)
  rw [found, Option.getD_some]
  refine ⟨Decimal.digits_trim_ne_zero _ nonzero 17, ?_⟩
  rw [Decimal.trim_value]
  exact owns_of_contains positive contained

end JobGraph.Binary64
