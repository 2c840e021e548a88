import JobGraph.Json.Printer
import JobGraph.Text.Quoted

/-!
# Parameters of a task

The parameters of a task are a bag of named values, or a list of values in the order of the names.
A variant says which names it knows and what each value must be; `ParameterProblem` says what is
wrong with a bag, the first problem in the order of its keys.
-/

namespace JobGraph

open Json (Value)

/-- What a value is expected to be. -/
inductive Expectation where
  | text
  | number
  | count
  | map
  | list
  | bag (variant : String)
  deriving DecidableEq, Repr

/-- What is wrong with parameters. -/
inductive ParameterProblem where
  | missing (field : String)
  | unknown (field : String) (known : List String)
  | wrongType (found : Value) (expected : Expectation)
  | outOfRange (found : Int)
  | tooMany (count : Nat)
  | tooFew (count : Nat) (variant : String) (expected : Nat)
  deriving DecidableEq, Repr

/-- A count that fits thirty-two bits. -/
def countBound : Nat := twoTo 32

def Expectation.phrase : Expectation → String
  | .text => "a string"
  | .number => "f64"
  | .count => "u32"
  | .map => "a map"
  | .list => "a sequence"
  | .bag variant => "struct " ++ variant

/-- How a value that does not fit is named. -/
def foundPhrase : Value → String
  | .null => "null"
  | .bool flag => if flag then "boolean `true`" else "boolean `false`"
  | .int number => "integer `" ++ String.ofList (intChars number) ++ "`"
  | .float number =>
    "floating point `" ++ String.ofList (number.write Binary64.dataLayout) ++ "`"
  | .str content => "string " ++ Text.quoted content
  | .arr _ => "sequence"
  | .obj _ => "map"

/-- The names that are known, in words. -/
def knownPhrase (known : List String) : String :=
  match known with
  | [only] => "expected `" ++ only ++ "`"
  | [first, second] => "expected `" ++ first ++ "` or `" ++ second ++ "`"
  | several =>
    "expected one of " ++ String.intercalate ", " (several.map fun name => "`" ++ name ++ "`")

def ParameterProblem.message : ParameterProblem → String
  | .missing field => "missing field `" ++ field ++ "`"
  | .unknown field known => "unknown field `" ++ field ++ "`, " ++ knownPhrase known
  | .wrongType found expected =>
    "invalid type: " ++ foundPhrase found ++ ", expected " ++ expected.phrase
  | .outOfRange found =>
    "invalid value: integer `" ++ String.ofList (intChars found) ++ "`, expected u32"
  | .tooMany count => "invalid length " ++ toString count ++
      ", expected fewer elements in array"
  | .tooFew count variant expected =>
    "invalid length " ++ toString count ++ ", expected struct " ++ variant ++ " with " ++
      toString expected ++ (if expected = 1 then " element" else " elements")

namespace Parameters

def text : Value → Except ParameterProblem String
  | .str content => .ok content
  | other => .error (.wrongType other .text)

/-- A number; a whole one is taken as well. -/
def number : Value → Except ParameterProblem Binary64
  | .float number => .ok number
  | .int number => .ok (Binary64.ofInt number)
  | other => .error (.wrongType other .number)

def count : Value → Except ParameterProblem Nat
  | .int number =>
    if 0 ≤ number ∧ number < countBound then .ok number.toNat else .error (.outOfRange number)
  | other => .error (.wrongType other .count)

def map : Value → Except ParameterProblem (KeyMap Value)
  | .obj members => .ok (KeyMap.ofList members)
  | other => .error (.wrongType other .map)

def texts : Value → Except ParameterProblem (List String)
  | .arr items => items.mapM text
  | other => .error (.wrongType other .list)

/-- The fields of a bag with their values.  `check` is tried on each value as its key comes, so that
the first problem is the one told. -/
def fields (variant : String) (known : List String)
    (check : String → Value → Except ParameterProblem Unit) :
    Value → Except ParameterProblem (List (String × Value))
  | .obj members => do
    for (name, value) in members do
      if name ∈ known then check name value else throw (.unknown name known)
    return members
  | .arr items => do
    let named := known.zip items
    for (name, value) in named do check name value
    if known.length < items.length then throw (.tooMany items.length)
    return named
  | other => throw (.wrongType other (.bag variant))

/-- A field that has to be there: a list that is too short is told apart from a missing name. -/
def required {α : Type} (variant : String) (known : List String) (bag : Value)
    (read : Value → Except ParameterProblem α) (found : List (String × Value)) (name : String) :
    Except ParameterProblem α :=
  match Entries.find? name found with
  | some value => read value
  | none =>
    match bag with
    | .arr items => .error (.tooFew items.length variant known.length)
    | _ => .error (.missing name)

def optional {α : Type} (read : Value → Except ParameterProblem α) (standard : α)
    (found : List (String × Value)) (name : String) : Except ParameterProblem α :=
  match Entries.find? name found with
  | some value => read value
  | none => .ok standard

end Parameters

end JobGraph
