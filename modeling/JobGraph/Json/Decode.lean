import JobGraph.Json.Tree

/-!
# Reading records

A record is read from an object with the record's keys or from an array of its fields in order.
Keys that the record does not have are passed over, a key that stands twice is refused, and an
array may leave out fields at its end but has no more than the record.
-/

namespace JobGraph.Json.Tree

def text? : Tree → Option String
  | .str text => text
  | _ => none

def flag? : Tree → Option Bool
  | .bool flag => some flag
  | _ => none

def natBelow? (bound : Nat) : Tree → Option Nat
  | .number numeral =>
    match numeral.value? with
    | some (.int n) => if 0 ≤ n ∧ n.toNat < bound then some n.toNat else none
    | _ => none
  | _ => none

/-- The items of an array, each read in the same way. -/
def list? {α : Type} (item? : Tree → Option α) : Tree → Option (List α)
  | .arr items => items.mapM item?
  | _ => none

/-- The members of an object read into a map; a repeated key takes the place of the earlier one. -/
def map? {α : Type} (value? : Tree → Option α) : Tree → Option (KeyMap α)
  | .obj members =>
    members.foldlM
      (fun map member => do
        let key ← member.1
        let value ← value? member.2
        return map.insert key value)
      KeyMap.empty
  | _ => none

/-- Puts the value of a known key into its place; a second value for one place is refused. -/
def placeField {α : Type} (key : String) (value : α) :
    List String → List (Option α) → Option (List (Option α))
  | name :: names, field :: fields =>
    if name = key then
      if field.isSome then none else some (some value :: fields)
    else (placeField key value names fields).map (field :: ·)
  | _, fields => some fields

def fieldsOfMembers? {α : Type} (names : List String) (members : List (Option String × α)) :
    Option (List (Option α)) :=
  members.foldlM
    (fun fields member => do
      let key ← member.1
      placeField key member.2 names fields)
    (names.map fun _ => none)

def fieldsOfItems? {α : Type} (names : List String) (items : List α) : Option (List (Option α)) :=
  if items.length ≤ names.length then
    some (items.map some ++ List.replicate (names.length - items.length) none)
  else none

/-- The fields of a record, in the order of their names. -/
def fields? (names : List String) : Tree → Option (List (Option Tree))
  | .obj members => fieldsOfMembers? names members
  | .arr items => fieldsOfItems? names items
  | _ => none

/-- A name out of a fixed choice: the name itself, or an object with the name and nothing. -/
def choice? {α : Type} (named? : String → Option α) : Tree → Option α
  | .str text => text.bind named?
  | .obj [(key, .null)] => key.bind named?
  | _ => none

end JobGraph.Json.Tree
