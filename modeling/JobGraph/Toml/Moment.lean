import JobGraph.Calendar.Timestamp

/-!
# Dates and times in a job file

A moment is a day, a time of day, both, or both at a distance from universal time.  The seconds of a
time may be left out, and decimals beyond the ninth do not count.  `Moment.read?` reads the written
form and `Moment.write` gives the one form in which a moment is shown.
-/

namespace JobGraph.Toml

open Text (digitsValue)

/-- A time of day. -/
structure DayTime where
  hour : Nat
  minute : Nat
  second : Nat
  nanosecond : Nat
  deriving DecidableEq, Repr

/-- How far a place is from universal time. -/
inductive Distance where
  | universal
  | minutes (ahead : Int)
  deriving DecidableEq, Repr

/-- A day, a time of day, or both. -/
inductive Moment where
  | calendarDay (date : Date)
  | clockTime (time : DayTime)
  | civil (date : Date) (time : DayTime)
  | fixed (date : Date) (time : DayTime) (distance : Distance)
  deriving DecidableEq, Repr

/-! ## Writing -/

namespace Moment

open Timestamp (padded)

/-- The decimals of a second, without zeros at their end. -/
def fractionChars (nanosecond : Nat) : List Char :=
  if nanosecond = 0 then []
  else '.' :: Text.dropEndWhile (· = '0') (padded 9 nanosecond)

def dateChars (date : Date) : List Char :=
  padded 4 date.year.toNat ++ '-' :: padded 2 date.month ++ '-' :: padded 2 date.day

def timeChars (time : DayTime) : List Char :=
  padded 2 time.hour ++ ':' :: padded 2 time.minute ++ ':' :: padded 2 time.second
    ++ fractionChars time.nanosecond

def distanceChars : Distance → List Char
  | .universal => ['Z']
  | .minutes ahead =>
    (if ahead < 0 then '-' else '+') :: padded 2 (ahead.natAbs / 60) ++ ':' ::
      padded 2 (ahead.natAbs % 60)

def write : Moment → List Char
  | .calendarDay date => dateChars date
  | .clockTime time => timeChars time
  | .civil date time => dateChars date ++ 'T' :: timeChars time
  | .fixed date time distance => dateChars date ++ 'T' :: timeChars time ++ distanceChars distance

/-! ## Reading -/

def readDigits (width : Nat) (text : List Char) : Option (Nat × List Char) :=
  let digits := text.take width
  if digits.length = width ∧ digits.all Char.isDigit then
    some (digitsValue digits, text.drop width)
  else none

def readMark (mark : Char) : List Char → Option (List Char)
  | c :: rest => if c = mark then some rest else none
  | [] => none

def readDate (text : List Char) : Option (Date × List Char) := do
  let (year, rest) ← readDigits 4 text
  let (month, rest) ← readDigits 2 (← readMark '-' rest)
  let (day, rest) ← readDigits 2 (← readMark '-' rest)
  let date : Date := ⟨year, month, day⟩
  if date.exists? then some (date, rest) else none

/-- Reads the decimals of a second, if there are any, as nanoseconds. -/
def readFraction : List Char → Option (Nat × List Char)
  | '.' :: rest =>
    let digits := rest.takeWhile Char.isDigit
    let nine := (digits ++ List.replicate 9 '0').take 9
    if digits.isEmpty then none else some (digitsValue nine, rest.drop digits.length)
  | text => some (0, text)

/-- Reads the seconds of a time, if there are any. -/
def readSeconds : List Char → Option (Nat × Nat × List Char)
  | ':' :: rest => do
    let (second, rest) ← readDigits 2 rest
    let (nanosecond, rest) ← readFraction rest
    some (second, nanosecond, rest)
  | text => some (0, 0, text)

def readTime (text : List Char) : Option (DayTime × List Char) := do
  let (hour, rest) ← readDigits 2 text
  let (minute, rest) ← readDigits 2 (← readMark ':' rest)
  let (second, nanosecond, rest) ← readSeconds rest
  if hour < 24 ∧ minute < 60 ∧ second ≤ 60 then
    some (⟨hour, minute, second, nanosecond⟩, rest)
  else none

def readDistance (sign : Int) (text : List Char) : Option Distance := do
  let (hours, rest) ← readDigits 2 text
  let (minutes, rest) ← readDigits 2 (← readMark ':' rest)
  if hours < 24 ∧ minutes < 60 ∧ rest.isEmpty then
    some (.minutes (sign * (60 * hours + minutes : Nat)))
  else none

/-- Reads what follows a day and a time of day. -/
def withDistance (date : Date) (time : DayTime) : List Char → Option Moment
  | [] => some (.civil date time)
  | ['Z'] | ['z'] => some (.fixed date time .universal)
  | '+' :: rest => (readDistance 1 rest).map (.fixed date time)
  | '-' :: rest => (readDistance (-1) rest).map (.fixed date time)
  | _ => none

def read? (text : List Char) : Option Moment :=
  match readDate text with
  | some (date, []) => some (.calendarDay date)
  | some (date, mark :: rest) =>
    if mark = 'T' ∨ mark = 't' ∨ mark = ' ' then
      (readTime rest).bind fun (time, after) => withDistance date time after
    else none
  | none =>
    match readTime text with
    | some (time, []) => some (.clockTime time)
    | _ => none

end Moment

end JobGraph.Toml
