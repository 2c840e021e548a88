import JobGraph.Json.Tree
import JobGraph.Text.Blank

/-!
# Timestamps

A timestamp is a day and a time of day at a distance from universal time.  Reading is relaxed:
blanks may stand between the parts, a blank may stand for the letter between day and time, numbers
may be short, and a sixtieth second is allowed.  Writing gives universal time with as many groups of
three decimals as the nanoseconds need.
-/

namespace JobGraph

open Text (digitsValue)

/-- A day of the proleptic Gregorian calendar. -/
structure Date where
  year : Int
  month : Nat
  day : Nat
  deriving DecidableEq, Repr

namespace Date

def isLeapYear (year : Int) : Bool := year % 4 == 0 && (year % 100 != 0 || year % 400 == 0)

/-- The days of a month; none for a number that is no month. -/
def daysIn (year : Int) (month : Nat) : Nat :=
  match month with
  | 1 | 3 | 5 | 7 | 8 | 10 | 12 => 31
  | 4 | 6 | 9 | 11 => 30
  | 2 => if isLeapYear year then 29 else 28
  | _ => 0

/-- The day that comes a number of days after the first day of the year 1970.  Years are counted
from March on, so that the day that not every year has is the last one. -/
def ofDays (days : Int) : Date :=
  let shifted := days + 719468
  let era := shifted.fdiv 146097
  let dayOfEra := (shifted - era * 146097).toNat
  let yearOfEra := (dayOfEra - dayOfEra / 1460 + dayOfEra / 36524 - dayOfEra / 146096) / 365
  let dayOfYear := dayOfEra - (365 * yearOfEra + yearOfEra / 4 - yearOfEra / 100)
  let monthFromMarch := (5 * dayOfYear + 2) / 153
  let month := if monthFromMarch < 10 then monthFromMarch + 3 else monthFromMarch - 9
  let year := era * 400 + yearOfEra
  ⟨if month ≤ 2 then year + 1 else year, month, dayOfYear - (153 * monthFromMarch + 2) / 5 + 1⟩

def exists? (date : Date) : Bool := 1 ≤ date.day && date.day ≤ daysIn date.year date.month

end Date

/-- A moment in universal time. -/
structure Timestamp where
  date : Date
  hour : Nat
  minute : Nat
  second : Nat
  nanosecond : Nat
  deriving DecidableEq, Repr

namespace Timestamp

/-- The years that a timestamp may name. -/
def firstYear : Int := -262143
def lastYear : Int := 262142

/-- The moment that comes a number of seconds and nanoseconds after the start of the year 1970. -/
def ofSeconds (seconds : Int) (nanosecond : Nat) : Timestamp :=
  let secondOfDay := (seconds.fmod 86400).toNat
  ⟨Date.ofDays (seconds.fdiv 86400), secondOfDay / 3600, secondOfDay / 60 % 60, secondOfDay % 60,
    nanosecond⟩

/-! ## Writing -/

/-- A number with zeros in front, to a width. -/
def padded (width n : Nat) : List Char :=
  let digits := digitChars n
  List.replicate (width - digits.length) '0' ++ digits

/-- The decimals of a second, in groups of three. -/
def fractionChars (nanosecond : Nat) : List Char :=
  if nanosecond = 0 then []
  else if nanosecond % 1000000 = 0 then '.' :: padded 3 (nanosecond / 1000000)
  else if nanosecond % 1000 = 0 then '.' :: padded 6 (nanosecond / 1000)
  else '.' :: padded 9 nanosecond

/-- The year, with a sign when it has not four digits. -/
def yearChars (year : Int) : List Char :=
  if 0 ≤ year ∧ year ≤ 9999 then padded 4 year.toNat
  else (if year < 0 then '-' else '+') :: padded 4 year.natAbs

def write (moment : Timestamp) : List Char :=
  yearChars moment.date.year ++ '-' :: padded 2 moment.date.month ++ '-' ::
    padded 2 moment.date.day ++ 'T' :: padded 2 moment.hour ++ ':' :: padded 2 moment.minute ++
    ':' :: padded 2 moment.second ++ fractionChars moment.nanosecond ++ ['Z']

/-! ## Reading -/

def skipBlank : List Char → List Char := List.dropWhile Text.isBlank

/-- Reads one to `width` digits, after blanks. -/
def readNumber (width : Nat) (text : List Char) : Option (Nat × List Char) :=
  let start := skipBlank text
  let digits := (start.take width).takeWhile Char.isDigit
  if digits.isEmpty then none else some (digitsValue digits, start.drop digits.length)

/-- Reads a year: up to four digits, or any number of them after a sign. -/
def readYear (text : List Char) : Option (Int × List Char) :=
  match skipBlank text with
  | '-' :: rest =>
    if rest.head?.any Char.isDigit then
      (readNumber rest.length rest).map fun (n, after) => (-n, after)
    else none
  | '+' :: rest =>
    if rest.head?.any Char.isDigit then
      (readNumber rest.length rest).map fun (n, after) => (n, after)
    else none
  | start => (readNumber 4 start).map fun (n, after) => (n, after)

def readMark (mark : Char) (text : List Char) : Option (List Char) :=
  match skipBlank text with
  | c :: rest => if c = mark then some rest else none
  | [] => none

/-- Passes over the decimals of a second, if there are any. -/
def readFraction : List Char → Option (List Char)
  | '.' :: rest =>
    if rest.head?.any Char.isDigit then some (rest.dropWhile Char.isDigit) else none
  | text => some text

/-- Reads the hours and minutes of a distance from universal time. -/
def readDistance : List Char → Option (List Char)
  | a :: b :: rest =>
    if a.isDigit && b.isDigit then
      match rest.dropWhile fun c => c = ':' || Text.isBlank c with
      | c :: d :: after =>
        if '0' ≤ c && c ≤ '5' && d.isDigit && digitsValue [a, b] < 24 then some after else none
      | _ => none
    else none
  | _ => none

/-- Reads the place of a time: universal time, or a distance from it. -/
def readZone (text : List Char) : Option (List Char) :=
  match skipBlank text with
  | a :: b :: c :: rest =>
    if [a, b, c].map Char.toUpper = ['U', 'T', 'C'] then some rest
    else if a = 'Z' ∨ a = 'z' then some (b :: c :: rest)
    else if a = '+' ∨ a = '-' ∨ a = '\u2212' then readDistance (b :: c :: rest)
    else none
  | c :: rest => if c = 'Z' ∨ c = 'z' then some rest else none
  | [] => none

def isTimestamp (text : List Char) : Bool :=
  let answer := do
    let (year, rest) ← readYear text
    let (month, rest) ← readNumber 2 (← readMark '-' rest)
    let (day, rest) ← readNumber 2 (← readMark '-' rest)
    let rest ←
      match rest with
      | 'T' :: rest | 't' :: rest | ' ' :: rest => some rest
      | _ => none
    let (hour, rest) ← readNumber 2 rest
    let (minute, rest) ← readNumber 2 (← readMark ':' rest)
    let (second, rest) ← readNumber 2 (← readMark ':' rest)
    let rest ← readZone (← readFraction rest)
    let valid :=
      firstYear ≤ year && year ≤ lastYear && (Date.mk year month day).exists? && hour < 24
        && minute < 60 && second ≤ 60 && (skipBlank rest).isEmpty
    return valid
  answer.getD false

end Timestamp

end JobGraph
