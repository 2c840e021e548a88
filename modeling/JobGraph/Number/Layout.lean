import JobGraph.Number.Shortest

/-!
# Writing a number

The digits of a number are its shortest decimal.  A `Layout` says how they are set: for which
exponents the point stands among the digits, whether a whole number keeps a fraction of zero, and
how an exponent is written.  Two layouts are in use, one for data and one for messages.
-/

namespace JobGraph

/-- The decimal digits of a natural number, most significant first. -/
def digitChars (n : Nat) : List Char := Nat.toDigits 10 n

def intChars (n : Int) : List Char :=
  if n < 0 then '-' :: digitChars n.natAbs else digitChars n.natAbs

namespace Binary64

/-- How the digits of a number are set. -/
structure Layout where
  /-- The exponents of ten, of the first digit, that are written with a point among the digits. -/
  positional : Int → Bool
  /-- What follows the digits of a whole number. -/
  wholeEnd : List Char
  /-- What stands before a positive exponent. -/
  exponentPlus : List Char
  notANumber : List Char
  /-- The text of an infinity, by whether it is negative. -/
  infinite : Bool → List Char

/-- Data keeps a fraction on whole numbers, and an exponent outside of `-5 … 15` is written out. -/
def dataLayout : Layout where
  positional := fun exponent => decide (-5 ≤ exponent ∧ exponent ≤ 15)
  wholeEnd := ['.', '0']
  exponentPlus := ['+']
  notANumber := ['n', 'u', 'l', 'l']
  infinite := fun _ => ['n', 'u', 'l', 'l']

/-- Messages never use an exponent, and a whole number has no point. -/
def messageLayout : Layout where
  positional := fun _ => true
  wholeEnd := []
  exponentPlus := []
  notANumber := ['N', 'a', 'N']
  infinite := fun negative => if negative then ['-', 'i', 'n', 'f'] else ['i', 'n', 'f']

/-- Digits with the point after `places` of them; zeros fill up either side. -/
def setPoint (layout : Layout) (digits : List Char) (places : Int) : List Char :=
  if places ≤ 0 then
    '0' :: '.' :: (List.replicate (-places).toNat '0' ++ digits)
  else if digits.length ≤ places.toNat then
    digits ++ List.replicate (places.toNat - digits.length) '0' ++ layout.wholeEnd
  else digits.take places.toNat ++ '.' :: digits.drop places.toNat

/-- One digit before the point, the others after it, and the exponent. -/
def setExponent (layout : Layout) (digits : List Char) (exponent : Int) : List Char :=
  let significand :=
    match digits with
    | first :: second :: rest => first :: '.' :: second :: rest
    | short => short
  let sign := if exponent < 0 then ['-'] else layout.exponentPlus
  significand ++ 'e' :: (sign ++ digitChars exponent.natAbs)

def writeMagnitude (layout : Layout) (magnitude : Nat) : List Char :=
  if magnitude = 0 then '0' :: layout.wholeEnd
  else
    let decimal := shortest magnitude
    let digits := digitChars decimal.digits
    let places := (digits.length : Int) + decimal.power
    if layout.positional (places - 1) then setPoint layout digits places
    else setExponent layout digits (places - 1)

def write (layout : Layout) (x : Binary64) : List Char :=
  if x.isNaN then layout.notANumber
  else if x.isFinite then
    if x.isNegative then '-' :: writeMagnitude layout x.magnitudeBits
    else writeMagnitude layout x.magnitudeBits
  else layout.infinite x.isNegative

def message (x : Binary64) : String := String.ofList (write messageLayout x)

end Binary64

end JobGraph
