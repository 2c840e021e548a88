import JobGraph.Calendar.Timestamp
import JobGraph.Proofs.Json.Numerals

/-!
# Timestamps read back

What is written for a moment of the calendar is accepted as a timestamp (`isTimestamp_write`).
-/

namespace JobGraph

open Json (EndsDigits takeWhile_digits dropWhile_digits)
open Text (digitsValue digitsValue_append digitsValue_digitChars digitsValue_replicate)

/-- A day that there is, in a year that a timestamp may name. -/
structure Date.Valid (date : Date) : Prop where
  first : Timestamp.firstYear ≤ date.year
  last : date.year ≤ Timestamp.lastYear
  day : date.exists? = true

theorem Date.month_le {date : Date} (there : date.exists? = true) : date.month ≤ 12 := by
  unfold Date.exists? at there
  by_contra late
  have none : Date.daysIn date.year date.month = 0 := by
    unfold Date.daysIn
    split <;> omega
  simp [none] at there
  omega

theorem Date.day_le {date : Date} (there : date.exists? = true) : date.day ≤ 31 := by
  have bound : Date.daysIn date.year date.month ≤ 31 := by
    unfold Date.daysIn
    split <;> first | omega | (split <;> omega)
  simp [Date.exists?] at there
  omega

namespace Timestamp

/-- A moment of the calendar; the sixtieth second is one that is put in. -/
structure Valid (moment : Timestamp) : Prop where
  date : moment.date.Valid
  hour : moment.hour < 24
  minute : moment.minute < 60
  second : moment.second ≤ 60

/-! ## Padded numbers -/

section Padded

variable {width n : Nat}

theorem isDigit_of_mem_padded {c : Char} (mem : c ∈ padded width n) : c.isDigit := by
  rcases List.mem_append.1 mem with zero | digit
  · rw [List.eq_of_mem_replicate zero]
    rfl
  · exact isDigit_of_mem_digitChars digit

theorem padded_ne_nil (width n : Nat) : padded width n ≠ [] := by
  simp [padded, digitChars_ne_nil]

theorem digitsValue_padded (width n : Nat) : digitsValue (padded width n) = n := by
  simp [padded, digitsValue_append, digitsValue_replicate, digitsValue_digitChars]

theorem length_padded (positive : 0 < width) (fits : n < 10 ^ width) :
    (padded width n).length = width := by
  have short : (digitChars n).length ≤ width :=
    (Nat.length_toDigits_le_iff (by decide) positive).2 fits
  simp [padded]
  omega

end Padded

/-! ## Reading -/

section Reading

variable {digits rest : List Char}

theorem isBlank_of_isDigit {c : Char} (digit : c.isDigit) : Text.isBlank c = false := by
  have bounds := Char.isDigit_iff_toNat.1 digit
  have low : 48 ≤ c.toNat := bounds.1
  have high : c.toNat ≤ 57 := bounds.2
  simp [Text.isBlank, Text.inRanges, Text.blankRanges]
  omega

theorem skipBlank_digits (all : ∀ c ∈ digits, c.isDigit) (some_ : digits ≠ []) (rest : List Char) :
    skipBlank (digits ++ rest) = digits ++ rest := by
  cases digits with
  | nil => exact absurd rfl some_
  | cons first others =>
    have visible := isBlank_of_isDigit (all first List.mem_cons_self)
    simp [skipBlank, visible]

theorem readNumber_append {width : Nat} (all : ∀ c ∈ digits, c.isDigit) (some_ : digits ≠ [])
    (fits : digits.length ≤ width) (stop : EndsDigits rest) :
    readNumber width (digits ++ rest) = some (digitsValue digits, rest) := by
  have stop' : EndsDigits (rest.take (width - digits.length)) := by
    cases rest with
    | nil => simp [EndsDigits]
    | cons c others =>
      cases width - digits.length with
      | zero => simp [EndsDigits]
      | succ n => exact stop
  have taken : ((digits ++ rest).take width).takeWhile Char.isDigit = digits := by
    rw [List.take_append, List.take_of_length_le fits]
    exact takeWhile_digits all stop'
  unfold readNumber
  rw [skipBlank_digits all some_ rest]
  dsimp only
  rw [taken]
  simp [some_]

theorem readNumber_padded {width n : Nat} (positive : 0 < width) (fits : n < 10 ^ width)
    (stop : EndsDigits rest) : readNumber width (padded width n ++ rest) = some (n, rest) := by
  rw [readNumber_append (fun _ => isDigit_of_mem_padded) (padded_ne_nil width n)
    (length_padded positive fits).le stop, digitsValue_padded]

theorem readMark_cons (mark : Char) (visible : Text.isBlank mark = false) (rest : List Char) :
    readMark mark (mark :: rest) = some rest := by
  simp [readMark, skipBlank, visible]

theorem endsDigits_cons {c : Char} (other : c.isDigit = false) (rest : List Char) :
    EndsDigits (c :: rest) := by
  rintro _ ⟨rfl⟩
  exact other

/-- A year with a sign may have any number of digits. -/
theorem readNumber_signed (n : Nat) (stop : EndsDigits rest) :
    (padded 4 n ++ rest).head?.any Char.isDigit = true ∧
      readNumber (padded 4 n ++ rest).length (padded 4 n ++ rest) = some (n, rest) := by
  have all : ∀ c ∈ padded 4 n, c.isDigit := fun _ => isDigit_of_mem_padded
  refine ⟨?_, ?_⟩
  · cases digits : padded 4 n with
    | nil => exact absurd digits (padded_ne_nil 4 n)
    | cons first others => exact all first (digits ▸ List.mem_cons_self)
  · rw [readNumber_append all (padded_ne_nil 4 n) (by simp) stop, digitsValue_padded]

theorem readYear_yearChars (year : Int) (stop : EndsDigits rest) :
    readYear (yearChars year ++ rest) = some (year, rest) := by
  unfold yearChars
  by_cases short : 0 ≤ year ∧ year ≤ 9999
  · have skipped := skipBlank_digits (fun _ => isDigit_of_mem_padded)
      (padded_ne_nil 4 year.toNat) rest
    have fits : year.toNat < 10 ^ 4 := by omega
    have read := readNumber_padded (by decide) fits stop
    have same : (year.toNat : Int) = year := Int.toNat_of_nonneg short.1
    rw [if_pos short, readYear, skipped]
    split
    case h_3 => simp only [read, Option.map_some, same]
    -- A year of four digits starts with no sign.
    all_goals
      next sign others head =>
        exfalso
        cases digits : padded 4 year.toNat with
        | nil => exact padded_ne_nil 4 _ digits
        | cons first more =>
          have digit := isDigit_of_mem_padded (digits ▸ List.mem_cons_self (a := first) (l := more))
          rw [digits, List.cons_append, List.cons.injEq] at head
          rw [head.1] at digit
          exact absurd digit (by decide)
  · obtain ⟨some_, read⟩ := readNumber_signed year.natAbs stop
    rw [if_neg short]
    by_cases sign : year < 0
    · have same : -(year.natAbs : Int) = year := by omega
      rw [if_pos sign, readYear, List.cons_append,
        show skipBlank ('-' :: (padded 4 year.natAbs ++ rest)) =
          '-' :: (padded 4 year.natAbs ++ rest) from rfl]
      simp only [some_, if_true, read, Option.map_some, same]
    · have same : (year.natAbs : Int) = year := by omega
      rw [if_neg sign, readYear, List.cons_append,
        show skipBlank ('+' :: (padded 4 year.natAbs ++ rest)) =
          '+' :: (padded 4 year.natAbs ++ rest) from rfl]
      simp only [some_, if_true, read, Option.map_some, same]

theorem readFraction_padded (width n : Nat) (stop : EndsDigits rest) :
    readFraction ('.' :: padded width n ++ rest) = some rest := by
  have all : ∀ c ∈ padded width n, c.isDigit := fun _ => isDigit_of_mem_padded
  have left := dropWhile_digits all stop
  have some_ : (padded width n ++ rest).head?.any Char.isDigit = true := by
    cases digits : padded width n with
    | nil => exact absurd digits (padded_ne_nil width n)
    | cons first others => exact all first (digits ▸ List.mem_cons_self)
  rw [List.cons_append, readFraction, if_pos some_, left]

theorem readFraction_fractionChars (nanosecond : Nat) (stop : EndsDigits rest)
    (point : ∀ c ∈ rest.head?, c ≠ '.') :
    readFraction (fractionChars nanosecond ++ rest) = some rest := by
  unfold fractionChars
  split
  · rw [List.nil_append]
    unfold readFraction
    split
    next => exact absurd rfl (point '.' rfl)
    next => rfl
  · split
    · exact readFraction_padded 3 _ stop
    · split
      · exact readFraction_padded 6 _ stop
      · exact readFraction_padded 9 _ stop

end Reading

/-- What is written for a moment is accepted. -/
theorem isTimestamp_write {moment : Timestamp} (valid : moment.Valid) :
    isTimestamp moment.write = true := by
  obtain ⟨⟨year, month, day⟩, hour, minute, second, nanosecond⟩ := moment
  obtain ⟨⟨first, last, there⟩, early, hourly, minutely⟩ := valid
  have monthLe := Date.month_le there
  have dayLe := Date.day_le there
  dsimp only at first last there early hourly minutely monthLe dayLe
  have dash : ∀ rest, EndsDigits ('-' :: rest) := endsDigits_cons rfl
  have colon : ∀ rest, EndsDigits (':' :: rest) := endsDigits_cons rfl
  have zone : EndsDigits ['Z'] := endsDigits_cons rfl []
  have fraction : EndsDigits (fractionChars nanosecond ++ ['Z']) := by
    unfold fractionChars
    split
    · exact zone
    · split
      · exact endsDigits_cons rfl _
      · split <;> exact endsDigits_cons rfl _
  have readFraction_ := readFraction_fractionChars nanosecond zone (by rintro _ ⟨rfl⟩; decide)
  have two : ∀ {n : Nat}, n < 100 → ∀ {rest}, EndsDigits rest →
      readNumber 2 (padded 2 n ++ rest) = some (n, rest) :=
    fun fits _ stop => readNumber_padded (by decide) fits stop
  have letter : ∀ rest, EndsDigits ('T' :: rest) := endsDigits_cons rfl
  have valid : (decide (firstYear ≤ year) && decide (year ≤ lastYear) &&
      (Date.mk year month day).exists? && decide (hour < 24) && decide (minute < 60) &&
        decide (second ≤ 60) && (skipBlank []).isEmpty) = true := by
    simp [first, last, there, early, hourly, minutely, skipBlank]
  simp only [isTimestamp, write, List.append_assoc, List.cons_append,
    readYear_yearChars year (dash _), readMark_cons '-' (by decide),
    two (show month < 100 by omega) (dash _),
    two (show day < 100 by omega) (letter _), two (show hour < 100 by omega) (colon _),
    two (show minute < 100 by omega) (colon _), two (show second < 100 by omega) fraction,
    readMark_cons ':' (by decide), readFraction_, Option.bind_eq_bind, Option.bind_some]
  have read : readZone ['Z'] = some [] := rfl
  rw [read]
  exact valid

end Timestamp

end JobGraph
