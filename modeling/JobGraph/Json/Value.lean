import JobGraph.KeyMap
import JobGraph.Number.Layout

/-!
# Data values

A value is what a parameter, a store entry or a message on the wire holds.  Whole numbers of
sixty-four bits, signed or unsigned, are kept apart from floating point numbers.  An object lists
its members in increasing order of their keys (`Value.Sorted`).
-/

namespace JobGraph.Json

/-- A data value. -/
inductive Value where
  | null
  | bool (flag : Bool)
  | int (number : Int)
  | float (number : Binary64)
  | str (text : String)
  | arr (items : List Value)
  | obj (members : List (String × Value))
  deriving Repr, Inhabited

namespace Value

mutual

def decideEq : (first second : Value) → Decidable (first = second)
  | .null, .null => .isTrue rfl
  | .bool a, .bool b => decidable_of_iff (a = b) (by simp)
  | .int a, .int b => decidable_of_iff (a = b) (by simp)
  | .float a, .float b => decidable_of_iff (a = b) (by simp)
  | .str a, .str b => decidable_of_iff (a = b) (by simp)
  | .arr a, .arr b =>
    match decideItems a b with
    | .isTrue same => .isTrue (by rw [same])
    | .isFalse different => .isFalse (by simpa using different)
  | .obj a, .obj b =>
    match decideMembers a b with
    | .isTrue same => .isTrue (by rw [same])
    | .isFalse different => .isFalse (by simpa using different)
  | .null, .bool _ | .null, .int _ | .null, .float _ | .null, .str _ | .null, .arr _
  | .null, .obj _ | .bool _, .null | .bool _, .int _ | .bool _, .float _ | .bool _, .str _
  | .bool _, .arr _ | .bool _, .obj _ | .int _, .null | .int _, .bool _ | .int _, .float _
  | .int _, .str _ | .int _, .arr _ | .int _, .obj _ | .float _, .null | .float _, .bool _
  | .float _, .int _ | .float _, .str _ | .float _, .arr _ | .float _, .obj _ | .str _, .null
  | .str _, .bool _ | .str _, .int _ | .str _, .float _ | .str _, .arr _ | .str _, .obj _
  | .arr _, .null | .arr _, .bool _ | .arr _, .int _ | .arr _, .float _ | .arr _, .str _
  | .arr _, .obj _ | .obj _, .null | .obj _, .bool _ | .obj _, .int _ | .obj _, .float _
  | .obj _, .str _ | .obj _, .arr _ => .isFalse (by simp)

/-- Decides whether two lists of values are the same. -/
def decideItems : (first second : List Value) → Decidable (first = second)
  | [], [] => .isTrue rfl
  | [], _ :: _ => .isFalse (by simp)
  | _ :: _, [] => .isFalse (by simp)
  | a :: as, b :: bs =>
    match decideEq a b, decideItems as bs with
    | .isTrue sameHead, .isTrue sameRest => .isTrue (by rw [sameHead, sameRest])
    | .isFalse different, _ => .isFalse (by simp [different])
    | _, .isFalse different => .isFalse (by simp [different])

/-- Decides whether two lists of members are the same. -/
def decideMembers : (first second : List (String × Value)) → Decidable (first = second)
  | [], [] => .isTrue rfl
  | [], _ :: _ => .isFalse (by simp)
  | _ :: _, [] => .isFalse (by simp)
  | (j, a) :: as, (k, b) :: bs =>
    match decEq j k, decideEq a b, decideMembers as bs with
    | .isTrue sameKey, .isTrue sameHead, .isTrue sameRest =>
      .isTrue (by rw [sameKey, sameHead, sameRest])
    | .isFalse different, _, _ => .isFalse (by simp [different])
    | _, .isFalse different, _ => .isFalse (by simp [different])
    | _, _, .isFalse different => .isFalse (by simp [different])

end

instance : DecidableEq Value := decideEq

mutual

/-- Every object lists its members in strictly increasing order of their keys. -/
def Sorted : Value → Prop
  | .arr items => SortedItems items
  | .obj members => Entries.Ordered members ∧ SortedMembers members
  | _ => True

def SortedItems : List Value → Prop
  | [] => True
  | item :: rest => Sorted item ∧ SortedItems rest

def SortedMembers : List (String × Value) → Prop
  | [] => True
  | (_, value) :: rest => Sorted value ∧ SortedMembers rest

end

mutual

/-- How many arrays and objects are nested in a value at most. -/
def depth : Value → Nat
  | .arr items => depthItems items + 1
  | .obj members => depthMembers members + 1
  | _ => 0

def depthItems : List Value → Nat
  | [] => 0
  | item :: rest => max (depth item) (depthItems rest)

def depthMembers : List (String × Value) → Nat
  | [] => 0
  | (_, value) :: rest => max (depth value) (depthMembers rest)

end

/-- The least whole number that is kept as such. -/
def minimumInt : Int := -(twoTo 63 : Int)

/-- The greatest whole number that is kept as such. -/
def maximumInt : Int := (twoTo 64 : Int) - 1

/-- A whole number: kept as such where it fits, as the nearest floating point number elsewhere. -/
def ofInt (n : Int) : Value :=
  if minimumInt ≤ n ∧ n ≤ maximumInt then .int n else .float (Binary64.ofInt n)

def ofNames (names : List String) : Value := .arr (names.map .str)

def ofMap (map : KeyMap Value) : Value := .obj map.entries

end Value

end JobGraph.Json
