import JobGraph.Toml.Value

/-!
# Tables while a job file is read

A table comes to be by its own header, because the header of a table below it names it, or because a
dotted key runs through it.  What may still be added to it hangs on that:

* a header opens a table that has no header yet and that no dotted key made;
* a dotted key runs through tables that have no header, and its last table is one that dotted keys
  made;
* nothing is added to a table in braces or to an array in brackets, which are leaves here;
* the tables of an array of tables are listed, and the last of them is the one that grows.
-/

namespace JobGraph.Toml

/-- How a table came to be. -/
inductive Origin where
  | header
  | implied
  | dotted
  deriving DecidableEq, Repr

/-- A table that may still grow, or a value that is complete. -/
inductive Draft where
  | leaf (value : Value)
  | table (origin : Origin) (members : List (String × Draft))
  | tables (items : List (List (String × Draft)))
  deriving Repr, Inhabited

/-- The members of a table, in the order in which they were written. -/
abbrev Draft.Members : Type := List (String × Draft)

namespace Draft

def find? (key : String) : Members → Option Draft
  | [] => none
  | (name, draft) :: rest => if name = key then some draft else find? key rest

/-- Puts a draft in the place of the one under a key, or at the end if there is none. -/
def put (key : String) (draft : Draft) : Members → Members
  | [] => [(key, draft)]
  | (name, old) :: rest =>
    if name = key then (name, draft) :: rest else (name, old) :: put key draft rest

def changeLast? (change : Members → Option Members) : List Members → Option (List Members)
  | [] => none
  | [last] => (change last).map ([·])
  | first :: rest => (changeLast? change rest).map (first :: ·)

/-- Adds a value under a dotted key: the keys before the last, and the last. -/
def insert? (value : Value) (key : String) : List String → Members → Option Members
  | [], members => if (find? key members).isSome then none else some (put key (.leaf value) members)
  | first :: path, members =>
    match find? first members with
    | none => (insert? value key path []).map fun new => put first (.table .dotted new) members
    | some (.table origin inner) =>
      if origin = .header ∨ (path.isEmpty ∧ origin ≠ .dotted) then none
      else (insert? value key path inner).map fun new => put first (.table origin new) members
    | some (.tables items) =>
      if path.isEmpty then none
      else (changeLast? (insert? value key path) items).map fun new =>
        put first (.tables new) members
    | some (.leaf _) => none

/-- Goes down the keys of a header and makes a change there. -/
def below? (change : Members → Option Members) : List String → Members → Option Members
  | [], members => change members
  | first :: path, members =>
    match find? first members with
    | none => (below? change path []).map fun new => put first (.table .implied new) members
    | some (.table origin inner) =>
      (below? change path inner).map fun new => put first (.table origin new) members
    | some (.tables items) =>
      (changeLast? (below? change path) items).map fun new => put first (.tables new) members
    | some (.leaf _) => none

/-- Opens the table of a header: the keys before the last, and the last. -/
def openTable? (path : List String) (key : String) (root : Members) : Option Members :=
  below?
    (fun members =>
      match find? key members with
      | none => some (put key (.table .header []) members)
      | some (.table .implied inner) => some (put key (.table .header inner) members)
      | some _ => none)
    path root

/-- Opens a further table of an array of tables. -/
def openItem? (path : List String) (key : String) (root : Members) : Option Members :=
  below?
    (fun members =>
      match find? key members with
      | none => some (put key (.tables [[]]) members)
      | some (.tables items) => some (put key (.tables (items ++ [[]])) members)
      | some _ => none)
    path root

mutual

def value : Draft → Value
  | .leaf value => value
  | .table _ members => .table (memberValues members)
  | .tables items => .arr (itemValues items)

def memberValues : List (String × Draft) → List (String × Value)
  | [] => []
  | (key, draft) :: rest => (key, draft.value) :: memberValues rest

def itemValues : List (List (String × Draft)) → List Value
  | [] => []
  | members :: rest => .table (memberValues members) :: itemValues rest

end

end Draft

end JobGraph.Toml
