import JobGraph.Json.Printer
import JobGraph.Json.Tree
import JobGraph.Proofs.Number.ShortestDecimal

/-!
# Numbers read back

A numeral that is written stands in front of whatever does not go on with it (`EndsNumber`), and is
read as it is (`readNumeral_write`).  The numerals of whole numbers and of floating point numbers
have those numbers as their values (`value?_ofInt`, `value?_ofFloat`).
-/

namespace JobGraph

/-! ## Digits -/

theorem isDigit_of_mem_digitChars {n : Nat} {c : Char} (mem : c ∈ digitChars n) : c.isDigit :=
  Nat.isDigit_of_mem_toDigits (by decide) (by decide) mem

theorem digitChars_ne_nil (n : Nat) : digitChars n ≠ [] := Nat.toDigits_ne_nil

/-- Only zero is written with a zero in front. -/
theorem head?_digitChars_ne {n : Nat} (some_ : n ≠ 0) : (digitChars n).head? ≠ some '0' := by
  induction n using Nat.strong_induction_on with
  | h n ih =>
    unfold digitChars at ih ⊢
    by_cases small : n < 10
    · rw [Nat.toDigits_of_lt_base small, List.head?_cons]
      simpa using some_
    · rw [Nat.toDigits_of_base_le (by decide) (by omega),
        List.head?_append_of_ne_nil _ Nat.toDigits_ne_nil]
      exact ih (n / 10) (by omega) (by omega)

namespace Text

theorem digitsValue_append (first second : List Char) :
    digitsValue (first ++ second) =
      10 ^ second.length * digitsValue first + digitsValue second := by
  have parts : digitsValue (first ++ second) =
      Nat.ofDigitChars 10 second (Nat.ofDigitChars 10 first 0) := Nat.ofDigitChars_append 0
  rw [parts, Nat.ofDigitChars_eq_ofDigitChars_zero]
  rfl

theorem digitsValue_digitChars (n : Nat) : digitsValue (digitChars n) = n :=
  Nat.ofDigitChars_ten_toDigits

theorem digitsValue_replicate (count : Nat) : digitsValue (List.replicate count '0') = 0 := by
  induction count with
  | zero => rfl
  | succ count ih => rw [List.replicate_succ', digitsValue_append, ih]; rfl

end Text

namespace Json

open Text (digitsValue digitsValue_append digitsValue_digitChars digitsValue_replicate)

section Parts

variable {digits rest : List Char}

/-- The text does not go on with a digit. -/
def EndsDigits (rest : List Char) : Prop := ∀ c ∈ rest.head?, c.isDigit = false

theorem takeWhile_digits (all : ∀ c ∈ digits, c.isDigit) (stop : EndsDigits rest) :
    (digits ++ rest).takeWhile Char.isDigit = digits := by
  rw [List.takeWhile_append_of_pos all]
  cases rest with
  | nil => simp
  | cons c rest => simp [stop c rfl]

theorem dropWhile_digits (all : ∀ c ∈ digits, c.isDigit) (stop : EndsDigits rest) :
    (digits ++ rest).dropWhile Char.isDigit = rest := by
  rw [List.dropWhile_append_of_pos all]
  cases rest with
  | nil => rfl
  | cons c rest => simp [stop c rfl]

theorem readWhole_append (all : ∀ c ∈ digits, c.isDigit) (some_ : digits ≠ [])
    (front : digits = ['0'] ∨ digits.head? ≠ some '0') (stop : EndsDigits rest) :
    readWhole (digits ++ rest) = some (digits, rest) := by
  rcases front with rfl | nonzero
  · have nothing : ∀ c ∈ ([] : List Char), c.isDigit := by simp
    have none : rest.takeWhile Char.isDigit = [] := takeWhile_digits nothing stop
    simp [readWhole, none]
  · have taken := takeWhile_digits all stop
    have left := dropWhile_digits all stop
    cases digits with
    | nil => exact absurd rfl some_
    | cons first others =>
      unfold readWhole
      split
      next same =>
        rw [List.cons_append, List.cons.injEq] at same
        exact absurd (congrArg some same.1) nonzero
      next => rw [taken, left]; rfl

theorem readFraction_point (all : ∀ c ∈ digits, c.isDigit) (some_ : digits ≠ [])
    (stop : EndsDigits rest) : readFraction ('.' :: digits ++ rest) = some (some digits, rest) := by
  have taken := takeWhile_digits all stop
  have left := dropWhile_digits all stop
  simp [readFraction, taken, left, some_]

theorem readFraction_none (stop : ∀ c ∈ rest.head?, c ≠ '.') :
    readFraction rest = some (none, rest) := by
  unfold readFraction
  split
  · exact absurd rfl (stop '.' rfl)
  · rfl

theorem readExponent_none (stop : ∀ c ∈ rest.head?, c ≠ 'e' ∧ c ≠ 'E') :
    readExponent rest = some (none, rest) := by
  unfold readExponent
  split
  all_goals first | rfl | exact absurd rfl (stop _ rfl).1 | exact absurd rfl (stop _ rfl).2

theorem readExponent_sign (exponent : Int) (stop : EndsDigits rest) :
    readExponent
        ('e' :: (if exponent < 0 then '-' else '+') :: digitChars exponent.natAbs ++ rest) =
      some (some exponent, rest) := by
  have all : ∀ c ∈ digitChars exponent.natAbs, c.isDigit := fun _ => isDigit_of_mem_digitChars
  have taken := takeWhile_digits all stop
  have left := dropWhile_digits all stop
  have nonempty : (digitChars exponent.natAbs).isEmpty = false := by
    simpa using digitChars_ne_nil exponent.natAbs
  by_cases sign : exponent < 0
  · have size : -(exponent.natAbs : Int) = exponent := by omega
    simp only [readExponent, readExponentDigits, sign, if_true, List.cons_append, taken, left,
      nonempty, digitsValue_digitChars, size, Bool.false_eq_true, if_false]
  · have size : (exponent.natAbs : Int) = exponent := by omega
    simp only [readExponent, readExponentDigits, sign, if_false, List.cons_append, taken, left,
      nonempty, digitsValue_digitChars, size, Bool.false_eq_true]

end Parts

/-! ## Numerals -/

/-- What may follow a number: nothing that would go on with it. -/
def EndsNumber (rest : List Char) : Prop :=
  ∀ c ∈ rest.head?, c.isDigit = false ∧ c ≠ '.' ∧ c ≠ 'e' ∧ c ≠ 'E'

namespace Numeral

/-- The text of a numeral, with a sign on each exponent. -/
def write (numeral : Numeral) : List Char :=
  (if numeral.negative then ['-'] else []) ++ numeral.whole ++
    (numeral.fraction.elim [] fun digits => '.' :: digits) ++
    numeral.exponent.elim [] fun exponent =>
      'e' :: (if exponent < 0 then '-' else '+') :: digitChars exponent.natAbs

/-- The digits of a numeral are digits, there are some, and no zero stands in front of others. -/
structure Valid (numeral : Numeral) : Prop where
  whole : ∀ c ∈ numeral.whole, c.isDigit
  some_whole : numeral.whole ≠ []
  front : numeral.whole = ['0'] ∨ numeral.whole.head? ≠ some '0'
  fraction : ∀ digits ∈ numeral.fraction, digits ≠ [] ∧ ∀ c ∈ digits, c.isDigit

end Numeral

theorem isDigit_ne_minus {c : Char} (digit : c.isDigit) : c ≠ '-' := by
  rintro rfl
  exact absurd digit (by decide)

theorem readNumeral_of_parts {negative : Bool} {unsigned whole middle last rest : List Char}
    {fraction : Option (List Char)} {exponent : Option Int}
    (plain : ∀ c ∈ unsigned.head?, c ≠ '-') (wholeRead : readWhole unsigned = some (whole, middle))
    (fractionRead : readFraction middle = some (fraction, last))
    (exponentRead : readExponent last = some (exponent, rest)) :
    readNumeral ((if negative then ['-'] else []) ++ unsigned) =
      some (⟨negative, whole, fraction, exponent⟩, rest) := by
  unfold readNumeral
  cases negative with
  | true => simp [wholeRead, fractionRead, exponentRead]
  | false =>
    cases unsigned with
    | nil => simp [wholeRead, fractionRead, exponentRead]
    | cons first others =>
      have other := plain first rfl
      simp only [Bool.false_eq_true, if_false, List.nil_append]
      split
      next same => exact absurd (List.cons.inj same).1 other
      next => simp [wholeRead, fractionRead, exponentRead]

/-- A numeral is read as it was written, and what follows it is left. -/
theorem readNumeral_write {numeral : Numeral} (valid : numeral.Valid) {rest : List Char}
    (stop : EndsNumber rest) : readNumeral (numeral.write ++ rest) = some (numeral, rest) := by
  obtain ⟨negative, whole, fraction, exponent⟩ := numeral
  obtain ⟨digits, some_, front, point⟩ := valid
  dsimp only at digits some_ front point
  set last : List Char := (exponent.elim [] fun exponent =>
    'e' :: (if exponent < 0 then '-' else '+') :: digitChars exponent.natAbs) ++ rest with lastIs
  set middle : List Char := (fraction.elim [] fun digits => '.' :: digits) ++ last with middleIs
  have lastEnd : ∀ c ∈ last.head?, c.isDigit = false ∧ c ≠ '.' := by
    cases exponent with
    | none => exact fun c mem => ⟨(stop c mem).1, (stop c mem).2.1⟩
    | some exponent =>
      intro c mem
      obtain rfl : 'e' = c := by simpa [lastIs] using mem
      decide
  have middleEnd : EndsDigits middle := by
    cases fraction with
    | none => exact fun c mem => (lastEnd c mem).1
    | some digits =>
      intro c mem
      obtain rfl : '.' = c := by simpa [middleIs] using mem
      decide
  have text : Numeral.write ⟨negative, whole, fraction, exponent⟩ ++ rest =
      (if negative then ['-'] else []) ++ (whole ++ middle) := by
    simp only [Numeral.write, middleIs, lastIs, List.append_assoc]
  have wholeRead := readWhole_append digits some_ front middleEnd
  have fractionRead : readFraction middle = some (fraction, last) := by
    cases fraction with
    | none => exact readFraction_none fun c mem => (lastEnd c mem).2
    | some digits =>
      exact readFraction_point (point digits rfl).2 (point digits rfl).1
        fun c mem => (lastEnd c mem).1
  have exponentRead : readExponent last = some (exponent, rest) := by
    cases exponent with
    | none => exact readExponent_none fun c mem => (stop c mem).2.2
    | some exponent => exact readExponent_sign exponent fun c mem => (stop c mem).1
  have plain : ∀ c ∈ (whole ++ middle).head?, c ≠ '-' := by
    cases whole with
    | nil => exact absurd rfl some_
    | cons first others =>
      intro c mem
      obtain rfl : first = c := by simpa using mem
      exact isDigit_ne_minus (digits first List.mem_cons_self)
  rw [text]
  exact readNumeral_of_parts plain wholeRead fractionRead exponentRead

/-! ## Whole numbers -/

namespace Numeral

def ofInt (n : Int) : Numeral := ⟨decide (n < 0), digitChars n.natAbs, none, none⟩

theorem write_ofInt (n : Int) : (ofInt n).write = intChars n := by
  by_cases sign : n < 0 <;> simp [write, ofInt, intChars, sign]

theorem front_digitChars (n : Nat) : digitChars n = ['0'] ∨ (digitChars n).head? ≠ some '0' := by
  by_cases zero : n = 0
  · subst zero
    exact Or.inl rfl
  · exact Or.inr (head?_digitChars_ne zero)

theorem valid_ofInt (n : Int) : (ofInt n).Valid where
  whole := fun _ => isDigit_of_mem_digitChars
  some_whole := digitChars_ne_nil _
  front := front_digitChars _
  fraction := by simp [ofInt]

theorem value?_ofInt {n : Int} (low : Value.minimumInt ≤ n) (high : n ≤ Value.maximumInt) :
    (ofInt n).value? = some (.int n) := by
  unfold Value.minimumInt twoTo at low
  unfold Value.maximumInt twoTo at high
  simp only [value?, ofInt, digitsValue_digitChars]
  by_cases sign : n < 0
  · have fits : n.natAbs ≠ 0 ∧ n.natAbs ≤ twoTo 63 := by unfold twoTo; omega
    have same : -(n.natAbs : Int) = n := by omega
    simp only [sign, decide_true, if_true, if_pos fits, same]
  · have fits : n.natAbs < twoTo 64 := by unfold twoTo; omega
    have same : (n.natAbs : Int) = n := by omega
    simp only [sign, decide_false, if_pos fits, same]
    rfl

/-! ## Floating point numbers -/

/-- The digits of a numeral as one number. -/
def digits (numeral : Numeral) : Nat := digitsValue (numeral.whole ++ numeral.fraction.getD [])

/-- The power of ten that belongs to `digits`. -/
def power (numeral : Numeral) : Int :=
  numeral.exponent.getD 0 - (numeral.fraction.getD []).length

/-- A numeral with a point or an exponent is read as the magnitude that owns it. -/
theorem value?_of_owns {numeral : Numeral} {x : Binary64} (finite : x.isFinite)
    (positive : 0 < x.magnitudeBits) (sign : numeral.negative = x.isNegative)
    (pointed : numeral.fraction.isSome ∨ numeral.exponent.isSome) (some_ : 0 < numeral.digits)
    (owns : Binary64.Owns x.magnitudeBits (Binary64.decimalValue numeral.digits numeral.power)) :
    numeral.value? = some (.float x) := by
  have read := Binary64.ofDecimal_of_owns numeral.negative positive (of_decide_eq_true finite) some_
    owns
  rw [sign, Binary64.ofMagnitude_magnitudeBits, ← sign] at read
  unfold digits power at read
  unfold value?
  dsimp only
  rw [read, if_pos finite]
  obtain ⟨negative, whole, fraction, exponent⟩ := numeral
  cases fraction <;> cases exponent <;> simp_all

/-- The numeral of digits with the point after `places` of them. -/
def ofDigits (negative : Bool) (digits : List Char) (places : Int) : Numeral :=
  if Binary64.dataLayout.positional (places - 1) then
    if places ≤ 0 then
      ⟨negative, ['0'], some (List.replicate (-places).toNat '0' ++ digits), none⟩
    else if digits.length ≤ places.toNat then
      ⟨negative, digits ++ List.replicate (places.toNat - digits.length) '0', some ['0'], none⟩
    else ⟨negative, digits.take places.toNat, some (digits.drop places.toNat), none⟩
  else
    ⟨negative, digits.take 1, if digits.length ≤ 1 then none else some (digits.drop 1),
      some (places - 1)⟩

section OfDigits

variable {negative : Bool} {digits : List Char} {places : Int}

theorem negative_ofDigits : (ofDigits negative digits places).negative = negative := by
  unfold ofDigits
  split_ifs <;> rfl

theorem pointed_ofDigits :
    (ofDigits negative digits places).fraction.isSome ∨
      (ofDigits negative digits places).exponent.isSome := by
  unfold ofDigits
  split_ifs <;> simp

theorem valid_ofDigits (all : ∀ c ∈ digits, c.isDigit) (some_ : digits ≠ [])
    (front : digits.head? ≠ some '0') : (ofDigits negative digits places).Valid := by
  have zero : ∀ n, ∀ c ∈ List.replicate n '0', c.isDigit := fun n c mem => by
    rw [List.eq_of_mem_replicate mem]
    rfl
  have part : ∀ n, n ≠ 0 → digits.take n ≠ [] ∧ (digits.take n).head? = digits.head? := by
    intro n positive
    cases digits with
    | nil => exact absurd rfl some_
    | cons first others =>
      obtain ⟨m, rfl⟩ := Nat.exists_eq_succ_of_ne_zero positive
      exact ⟨by simp, rfl⟩
  unfold ofDigits
  split_ifs with positional before whole short
  · refine ⟨zero 1, by simp, Or.inl rfl, ?_⟩
    rintro _ ⟨rfl⟩
    refine ⟨by simp [some_], fun c mem => ?_⟩
    rcases List.mem_append.1 mem with mem | mem
    · exact zero _ c mem
    · exact all c mem
  · refine ⟨fun c mem => ?_, by simp [some_], Or.inr ?_, ?_⟩
    · rcases List.mem_append.1 mem with mem | mem
      · exact all c mem
      · exact zero _ c mem
    · rw [List.head?_append_of_ne_nil _ some_]
      exact front
    · rintro _ ⟨rfl⟩
      exact ⟨by simp, zero 1⟩
  · obtain ⟨nonempty, head⟩ := part places.toNat (by omega)
    refine ⟨fun c mem => all c (List.mem_of_mem_take mem), nonempty, Or.inr (head ▸ front), ?_⟩
    rintro _ ⟨rfl⟩
    exact ⟨by simpa using whole, fun c mem => all c (List.mem_of_mem_drop mem)⟩
  · obtain ⟨nonempty, head⟩ := part 1 (by decide)
    refine ⟨fun c mem => all c (List.mem_of_mem_take mem), nonempty, Or.inr (head ▸ front), ?_⟩
    simp
  · obtain ⟨nonempty, head⟩ := part 1 (by decide)
    refine ⟨fun c mem => all c (List.mem_of_mem_take mem), nonempty, Or.inr (head ▸ front), ?_⟩
    rintro _ ⟨rfl⟩
    refine ⟨?_, fun c mem => all c (List.mem_of_mem_drop mem)⟩
    rw [← List.length_pos_iff, List.length_drop]
    omega

theorem write_ofDigits (some_ : digits ≠ []) :
    (ofDigits negative digits places).write = (if negative then ['-'] else []) ++
      if Binary64.dataLayout.positional (places - 1) then
        Binary64.setPoint Binary64.dataLayout digits places
      else Binary64.setExponent Binary64.dataLayout digits (places - 1) := by
  unfold ofDigits Binary64.setPoint Binary64.setExponent
  by_cases positional : Binary64.dataLayout.positional (places - 1) = true
  · rw [if_pos positional, if_pos positional]
    by_cases before : places ≤ 0
    · rw [if_pos before, if_pos before]
      simp [write]
    rw [if_neg before, if_neg before]
    by_cases whole : digits.length ≤ places.toNat
    · rw [if_pos whole, if_pos whole]
      simp [write, Binary64.dataLayout]
    · rw [if_neg whole, if_neg whole]
      simp [write]
  · rw [if_neg positional, if_neg positional]
    generalize places - 1 = exponent
    have sign : (if exponent < 0 then ['-'] else ['+']) =
        [if exponent < 0 then '-' else '+'] := by split <;> rfl
    match digits, some_ with
    | [first], _ => simp [write, Binary64.dataLayout, sign]
    | first :: second :: rest, _ => simp [write, Binary64.dataLayout, sign]

/-- Wherever the point is set, the numeral is worth its digits with the power of ten that puts the
point after `places` of them. -/
theorem decimalValue_ofDigits (some_ : digits ≠ []) :
    Binary64.decimalValue (ofDigits negative digits places).digits
        (ofDigits negative digits places).power =
      Binary64.decimalValue (digitsValue digits) (places - digits.length) := by
  have joined : ∀ n, digits.take n ++ digits.drop n = digits := fun n => List.take_append_drop n _
  unfold ofDigits Numeral.digits Numeral.power
  split_ifs with positional before whole short
  · have length : (List.replicate (-places).toNat '0' ++ digits).length =
        (-places).toNat + digits.length := by simp
    have value : digitsValue (['0'] ++ (List.replicate (-places).toNat '0' ++ digits)) =
        digitsValue digits := by
      rw [digitsValue_append, digitsValue_append, digitsValue_replicate]
      simp [digitsValue]
    dsimp only [Option.getD_some, Option.getD_none]
    rw [value, length]
    congr 1
    omega
  · have value :
        digitsValue (digits ++ List.replicate (places.toNat - digits.length) '0' ++ ['0']) =
        10 ^ (places.toNat - digits.length + 1) * digitsValue digits := by
      rw [List.append_assoc, digitsValue_append, digitsValue_append, digitsValue_replicate]
      simp [digitsValue]
    have power : places - digits.length =
        ((places.toNat - digits.length + 1 : Nat) : Int) + (0 - (1 : Nat)) := by omega
    dsimp only [Option.getD_some, Option.getD_none, List.length_singleton]
    rw [value, power, Binary64.decimalValue, Binary64.decimalValue, zpow_add₀ (by norm_num),
      zpow_natCast]
    push_cast
    ring
  · have length : (digits.drop places.toNat).length = digits.length - places.toNat := by simp
    dsimp only [Option.getD_some, Option.getD_none]
    rw [joined, length]
    congr 1
    omega
  · have alone : digits.length = 1 := by
      have := List.length_pos_iff.2 some_
      omega
    dsimp only [Option.getD_some, Option.getD_none, List.length_nil]
    rw [List.append_nil, List.take_of_length_le short, alone]
    congr 1
    omega
  · have length : (digits.drop 1).length = digits.length - 1 := by simp
    dsimp only [Option.getD_some, Option.getD_none]
    rw [joined, length]
    congr 1
    omega

end OfDigits

/-- The numeral of a finite number, as data are written. -/
def ofFloat (x : Binary64) : Numeral :=
  if x.magnitudeBits = 0 then ⟨x.isNegative, ['0'], some ['0'], none⟩
  else
    let decimal := Binary64.shortest x.magnitudeBits
    ofDigits x.isNegative (digitChars decimal.digits)
      ((digitChars decimal.digits).length + decimal.power)

theorem valid_ofFloat (x : Binary64) : (ofFloat x).Valid := by
  unfold ofFloat
  by_cases zero : x.magnitudeBits = 0
  · rw [if_pos zero]
    refine ⟨by simp, by simp, Or.inl rfl, ?_⟩
    rintro _ ⟨rfl⟩
    exact ⟨by simp, by simp⟩
  · rw [if_neg zero]
    have some_ := (Binary64.shortest_owned (Nat.pos_of_ne_zero zero)).1
    exact valid_ofDigits (fun _ => isDigit_of_mem_digitChars) (digitChars_ne_nil _)
      (head?_digitChars_ne some_)

theorem write_ofFloat {x : Binary64} (finite : x.isFinite) :
    (ofFloat x).write = x.write Binary64.dataLayout := by
  have number : x.isNaN = false := by
    unfold Binary64.isFinite at finite
    unfold Binary64.isNaN
    simp at finite ⊢
    omega
  have sign : ∀ text : List Char, (if x.isNegative then '-' :: text else text) =
      (if x.isNegative then ['-'] else []) ++ text := fun text => by split <;> rfl
  unfold Binary64.write Binary64.writeMagnitude ofFloat
  rw [number, finite, sign]
  by_cases zero : x.magnitudeBits = 0
  · rw [if_pos zero, if_pos zero]
    simp [write, Binary64.dataLayout]
  · rw [if_neg zero, if_neg zero, write_ofDigits (digitChars_ne_nil _)]
    simp

theorem value?_ofFloat {x : Binary64} (finite : x.isFinite) :
    (ofFloat x).value? = some (.float x) := by
  by_cases zero : x.magnitudeBits = 0
  · have whole : digitsValue ['0', '0'] = 0 := rfl
    have same := Binary64.ofMagnitude_magnitudeBits x
    rw [zero] at same
    unfold ofFloat value?
    rw [if_pos zero]
    simp [whole, Binary64.ofDecimal, same, finite]
  · obtain ⟨some_, owns⟩ := Binary64.shortest_owned (Nat.pos_of_ne_zero zero)
    unfold ofFloat
    rw [if_neg zero]
    set decimal := Binary64.shortest x.magnitudeBits
    set places : Int := (digitChars decimal.digits).length + decimal.power with placed
    have worth : Binary64.decimalValue
        (ofDigits x.isNegative (digitChars decimal.digits) places).digits
        (ofDigits x.isNegative (digitChars decimal.digits) places).power = decimal.value := by
      rw [decimalValue_ofDigits (digitChars_ne_nil _), digitsValue_digitChars, placed,
        add_sub_cancel_left]
      rfl
    refine value?_of_owns finite (Nat.pos_of_ne_zero zero) negative_ofDigits pointed_ofDigits ?_ ?_
    · by_contra none
      rw [Nat.eq_zero_of_not_pos none, Binary64.decimalValue, Nat.cast_zero, zero_mul,
        Binary64.Decimal.value, Binary64.decimalValue] at worth
      have := mul_pos (Nat.cast_pos (α := ℚ).2 (Nat.pos_of_ne_zero some_))
        (Binary64.ten_zpow_pos decimal.power)
      exact this.ne worth
    · rw [worth]
      exact owns

end Numeral

end Json

end JobGraph
