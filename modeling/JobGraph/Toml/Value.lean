import JobGraph.Json.Value
import JobGraph.Toml.Moment

/-!
# Values of a job file

What a job file says once its tables are put together.  `Value.toJson` turns a value into plain
data: a moment becomes an object with one marked key, and a number that is not finite is lost.
-/

namespace JobGraph.Toml

/-- A value of a job file. -/
inductive Value where
  | str (text : String)
  | int (n : Int)
  | float (x : Binary64)
  | bool (flag : Bool)
  | moment (point : Moment)
  | arr (items : List Value)
  | table (members : List (String × Value))
  deriving Repr, Inhabited

namespace Value

/-- The key under which plain data keeps a moment. -/
def momentKey : String := "$__toml_private_datetime"

/-- Whether a whole number fits plain data. -/
def isPlainInt (n : Int) : Bool := -(twoTo 63 : Int) ≤ n && n < twoTo 64

mutual

/-- The value as plain data; none if it has a whole number that does not fit. -/
def toJson? : Value → Option Json.Value
  | .str text => some (.str text)
  | .int n => if isPlainInt n then some (.int n) else none
  | .float x => some (if x.isFinite then .float x else .null)
  | .bool flag => some (.bool flag)
  | .moment point => some (.obj [(momentKey, .str (String.ofList point.write))])
  | .arr items => (itemsToJson? items).map .arr
  | .table members => (membersToJson? members []).map .obj

def itemsToJson? : List Value → Option (List Json.Value)
  | [] => some []
  | item :: rest =>
    match item.toJson?, itemsToJson? rest with
    | some item, some rest => some (item :: rest)
    | _, _ => none

/-- Adds members to those already turned into plain data. -/
def membersToJson? :
    List (String × Value) → List (String × Json.Value) → Option (List (String × Json.Value))
  | [], known => some known
  | (key, value) :: rest, known =>
    match value.toJson? with
    | some value => membersToJson? rest (Entries.insert key value known)
    | none => none

end

/-! ## Views -/

def text? : Value → Option String
  | .str text => some text
  | _ => none

/-- A whole number from zero to below a bound. -/
def natBelow? (bound : Nat) : Value → Option Nat
  | .int n => if 0 ≤ n ∧ n.toNat < bound then some n.toNat else none
  | _ => none

def number? : Value → Option Binary64
  | .float x => some x
  | .int n => if isPlainInt n then some (.ofInt n) else none
  | _ => none

def texts? : Value → Option (List String)
  | .arr items => items.mapM text?
  | _ => none

end Value

end JobGraph.Toml
