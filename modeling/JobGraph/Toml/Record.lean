import JobGraph.Toml.Value

/-!
# Reading records of a job file

A record is read from a table with the record's keys or from an array of its fields in order.  A key
that the record does not have is refused, a field may have several names of which one may be used,
and items of an array beyond the fields of the record do not count.
-/

namespace JobGraph.Toml.Value

/-- Puts a value into the place of the field that has its name; a name that no field has is refused,
and so is a second value for one field. -/
def placeField? (key : String) (value : Value) :
    List (List String) → List (Option Value) → Option (List (Option Value))
  | names :: others, field :: fields =>
    if names.contains key then
      if field.isSome then none else some (some value :: fields)
    else (placeField? key value others fields).map (field :: ·)
  | _, _ => none

/-- The fields of a record, in the order in which their names are listed. -/
def fields? (names : List (List String)) : Value → Option (List (Option Value))
  | .table members =>
    members.foldlM (fun fields member => placeField? member.1 member.2 names fields)
      (names.map fun _ => none)
  | .arr items =>
    some ((items.take names.length).map some ++ List.replicate (names.length - items.length) none)
  | _ => none

/-- A field that has a value of its own when it is left out. -/
def orDefault? {α : Type} (default : α) (read? : Value → Option α) : Option Value → Option α
  | none => some default
  | some value => read? value

end JobGraph.Toml.Value
