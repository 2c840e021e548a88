import JobGraph.Number.Power
import JobGraph.Shell.Token
import JobGraph.Text.Digits

/-!
# Arithmetic of the shell

Whole numbers, variables, and signs with their precedences.  Division goes toward zero; a division
by zero has no value.
-/

namespace JobGraph.Shell

/-- A part of an arithmetic expression. -/
inductive Symbol where
  | number (value : Int)
  | name (name : String)
  | sign (text : String)
  deriving DecidableEq, Repr

/-- The signs, longer ones before those that begin them. -/
def arithmeticSigns : List String :=
  ["||", "&&", "==", "!=", "<=", ">=", "<<", ">>", "+", "-", "*", "/", "%", "<", ">", "!", "~", "&",
    "|", "^", "(", ")"]

/-- The signs with two sides, the loosest first. -/
def signLevels : List (List String) :=
  [["||"], ["&&"], ["|"], ["^"], ["&"], ["==", "!="], ["<=", ">=", "<", ">"], ["<<", ">>"],
    ["+", "-"], ["*", "/", "%"]]

/-- The parts of an expression; the first argument bounds their number. -/
def readSymbols : Nat → List Char → Option (List Symbol)
  | 0, _ => none
  | _ + 1, [] => some []
  | budget + 1, c :: rest =>
    if isSpace c || c = '\n' || c = '$' then readSymbols budget rest
    else if c.isDigit then
      let digits := (c :: rest).takeWhile Char.isDigit
      (readSymbols budget ((c :: rest).drop digits.length)).map
        (.number (Text.digitsValue digits) :: ·)
    else if isNameStart c then
      let name := (c :: rest).takeWhile isNameChar
      (readSymbols budget ((c :: rest).drop name.length)).map (.name (String.ofList name) :: ·)
    else
      match arithmeticSigns.find? fun sign => sign.toList.isPrefixOf (c :: rest) with
      | some sign =>
        (readSymbols budget ((c :: rest).drop sign.length)).map (.sign sign :: ·)
      | none => none

def truth (holds : Bool) : Int := if holds then 1 else 0

def applySign (sign : String) (left right : Int) : Option Int :=
  match sign with
  | "||" => some (truth (left ≠ 0 || right ≠ 0))
  | "&&" => some (truth (left ≠ 0 && right ≠ 0))
  | "|" => some (Int.ofNat (left.toNat ||| right.toNat))
  | "^" => some (Int.ofNat (left.toNat ^^^ right.toNat))
  | "&" => some (Int.ofNat (left.toNat &&& right.toNat))
  | "==" => some (truth (left = right))
  | "!=" => some (truth (left ≠ right))
  | "<=" => some (truth (left ≤ right))
  | ">=" => some (truth (right ≤ left))
  | "<" => some (truth (left < right))
  | ">" => some (truth (right < left))
  | "<<" => some (left * twoTo right.toNat)
  | ">>" => some (left.fdiv (twoTo right.toNat))
  | "+" => some (left + right)
  | "-" => some (left - right)
  | "*" => some (left * right)
  | "/" => if right = 0 then none else some (left.tdiv right)
  | "%" => if right = 0 then none else some (left.tmod right)
  | _ => none

mutual

/-- The value of an expression whose signs are of the given levels. -/
def evaluateLevel (value : String → Int) :
    Nat → List (List String) → List Symbol → Option (Int × List Symbol)
  | 0, _, _ => none
  | fuel + 1, [], symbols => evaluateSingle value fuel symbols
  | fuel + 1, signs :: tighter, symbols => do
    let (first, rest) ← evaluateLevel value fuel tighter symbols
    evaluateRest value fuel signs tighter first rest

/-- The value of what stands to the left with the signs of a level to its right. -/
def evaluateRest (value : String → Int) :
    Nat → List String → List (List String) → Int → List Symbol → Option (Int × List Symbol)
  | 0, _, _, _, _ => none
  | fuel + 1, signs, tighter, left, symbols =>
    match symbols with
    | .sign sign :: rest =>
      if signs.contains sign then do
        let (right, rest) ← evaluateLevel value fuel tighter rest
        evaluateRest value fuel signs tighter (← applySign sign left right) rest
      else some (left, symbols)
    | _ => some (left, symbols)

/-- The value of a number, a variable, a bracket, or one of these after a sign. -/
def evaluateSingle (value : String → Int) : Nat → List Symbol → Option (Int × List Symbol)
  | 0, _ => none
  | fuel + 1, symbols =>
    match symbols with
    | .number number :: rest => some (number, rest)
    | .name name :: rest => some (value name, rest)
    | .sign "(" :: rest => do
      let (inner, rest) ← evaluateLevel value fuel signLevels rest
      match rest with
      | .sign ")" :: rest => some (inner, rest)
      | _ => none
    | .sign "-" :: rest => (evaluateSingle value fuel rest).map fun (inner, rest) => (-inner, rest)
    | .sign "+" :: rest => evaluateSingle value fuel rest
    | .sign "!" :: rest =>
      (evaluateSingle value fuel rest).map fun (inner, rest) => (truth (inner = 0), rest)
    | .sign "~" :: rest =>
      (evaluateSingle value fuel rest).map fun (inner, rest) => (-inner - 1, rest)
    | _ => none

end

/-- The value of an arithmetic expression, for given values of the variables. -/
def evaluateArithmetic? (value : String → Int) (expression : List Char) : Option Int := do
  let symbols ← readSymbols (expression.length + 1) expression
  if symbols.isEmpty then some 0
  else
    match ← evaluateLevel value (20 * symbols.length + 20) signLevels symbols with
    | (result, []) => some result
    | _ => none

end JobGraph.Shell
