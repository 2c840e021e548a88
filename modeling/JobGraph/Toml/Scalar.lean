import JobGraph.Toml.Value

/-!
# Values written without quotation marks

A word is a flag, a whole number in base ten, sixteen, eight or two, a number with a point or an
exponent, one of the names of what is not finite, or a moment.  Digits may be grouped by underscores
that stand between two of them.
-/

namespace JobGraph.Toml

open Text (digitsValue hexValue?)

/-! ## Digits -/

/-- The digits after the first, without the underscores between them. -/
def ungroupAfter? (isDigit : Char → Bool) : List Char → Option (List Char)
  | [] => some []
  | '_' :: digit :: rest =>
    if isDigit digit then (ungroupAfter? isDigit rest).map (digit :: ·) else none
  | digit :: rest =>
    if isDigit digit then (ungroupAfter? isDigit rest).map (digit :: ·) else none

/-- The digits of a number without the underscores between them; none if there is no digit or an
underscore is not between two of them. -/
def ungroup? (isDigit : Char → Bool) : List Char → Option (List Char)
  | [] => none
  | digit :: rest =>
    if isDigit digit then (ungroupAfter? isDigit rest).map (digit :: ·) else none

/-- The digits of a whole number in base ten, which start with a zero only if there is no other. -/
def wholeDigits? (text : List Char) : Option (List Char) :=
  match ungroup? Char.isDigit text with
  | some ('0' :: _ :: _) => none
  | other => other

/-- The value of digits in a base up to sixteen. -/
def valueInBase (base : Nat) (digits : List Char) : Nat :=
  digits.foldl (fun total digit => base * total + (hexValue? digit).getD 0) 0

def isDigitBelow (base : Nat) (c : Char) : Bool := (hexValue? c).any (· < base)

def splitSign : List Char → Bool × List Char
  | '-' :: rest => (true, rest)
  | '+' :: rest => (false, rest)
  | text => (false, text)

/-! ## Kinds of words -/

/-- A whole number that one hundred and twenty-eight bits can hold. -/
def boundedInt? (n : Int) : Option Value :=
  if -(twoTo 127 : Int) ≤ n ∧ n < twoTo 128 then some (.int n) else none

/-- Reads a whole number in a base other than ten, after its mark. -/
def based? (base : Nat) (text : List Char) : Option Value :=
  (ungroup? (isDigitBelow base) text).bind fun digits => boundedInt? (valueInBase base digits)

def int? : List Char → Option Value
  | '0' :: 'x' :: text => based? 16 text
  | '0' :: 'o' :: text => based? 8 text
  | '0' :: 'b' :: text => based? 2 text
  | text =>
    let (negative, unsigned) := splitSign text
    (wholeDigits? unsigned).bind fun digits =>
      let size : Int := digitsValue digits
      boundedInt? (if negative then -size else size)

/-- Whether a character may be part of a grouped number. -/
def isGrouped (c : Char) : Bool := c.isDigit || c = '_'

/-- Reads the digits after a point, if there is one. -/
def splitFraction? : List Char → Option (Option (List Char) × List Char)
  | '.' :: rest =>
    (ungroup? Char.isDigit (rest.takeWhile isGrouped)).map fun digits =>
      (some digits, rest.dropWhile isGrouped)
  | text => some (none, text)

/-- Reads an exponent, if there is one; nothing may follow it. -/
def exponent? : List Char → Option (Option Int)
  | [] => some none
  | mark :: rest =>
    if mark = 'e' ∨ mark = 'E' then
      let (negative, unsigned) := splitSign rest
      (ungroup? Char.isDigit unsigned).map fun digits =>
        let size : Int := digitsValue digits
        some (if negative then -size else size)
    else none

/-- Reads the name of what is not finite. -/
def notFinite? (negative : Bool) (text : List Char) : Option Value :=
  if text = ['i', 'n', 'f'] then some (.float (.infinity negative))
  else if text = ['n', 'a', 'n'] then some (.float .nan)
  else none

/-- Reads a number with a point or an exponent, which has to be finite. -/
def decimal? (negative : Bool) (text : List Char) : Option Value := do
  let whole ← wholeDigits? (text.takeWhile isGrouped)
  let (fraction, rest) ← splitFraction? (text.dropWhile isGrouped)
  let exponent ← exponent? rest
  let decimals := fraction.getD []
  let nearest :=
    Binary64.ofDecimal negative (digitsValue (whole ++ decimals))
      (exponent.getD 0 - decimals.length)
  if (fraction.isSome ∨ exponent.isSome) ∧ nearest.isFinite then some (.float nearest) else none

def float? (text : List Char) : Option Value :=
  let (negative, unsigned) := splitSign text
  notFinite? negative unsigned <|> decimal? negative unsigned

def flag? (text : List Char) : Option Value :=
  if text = ['t', 'r', 'u', 'e'] then some (.bool true)
  else if text = ['f', 'a', 'l', 's', 'e'] then some (.bool false)
  else none

def scalar? (text : List Char) : Option Value :=
  flag? text <|> int? text <|> float? text <|> (Moment.read? text).map .moment

/-! ## Where a word ends -/

def isScalarChar (c : Char) : Bool :=
  c.isAlphanum || c = '_' || c = '+' || c = '-' || c = '.' || c = ':'

/-- A word and what follows it; a day and a time of day with a space between them are one word. -/
def splitScalar (text : List Char) : List Char × List Char :=
  let word := text.takeWhile isScalarChar
  match Moment.readDate word, text.dropWhile isScalarChar with
  | some (_, []), ' ' :: digit :: rest =>
    if digit.isDigit then
      (word ++ ' ' :: (digit :: rest).takeWhile isScalarChar,
        (digit :: rest).dropWhile isScalarChar)
    else (word, ' ' :: digit :: rest)
  | _, rest => (word, rest)

end JobGraph.Toml
