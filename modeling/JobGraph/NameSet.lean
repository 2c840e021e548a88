/-!
# Sets of names

A set of names is the list of its members in strictly increasing order.
-/

namespace JobGraph

namespace Names

/-- Adds a name to an increasing list of names. -/
def insert (name : String) : List String → List String
  | [] => [name]
  | current :: rest =>
    if name < current then name :: current :: rest
    else if name = current then current :: rest
    else current :: insert name rest

/-- The names stand in strictly increasing order. -/
def Ordered (names : List String) : Prop := names.Pairwise (· < ·)

theorem mem_insert {name other : String} {names : List String} :
    other ∈ insert name names ↔ other = name ∨ other ∈ names := by
  induction names with
  | nil => simp [insert]
  | cons current rest inductionHypothesis =>
      simp only [insert]
      split
      · simp
      · split
        next same => simp [same]
        next => simp only [List.mem_cons, inductionHypothesis]; grind

theorem Ordered.insert {names : List String} (ordered : Ordered names) (name : String) :
    Ordered (Names.insert name names) := by
  induction names with
  | nil => simp [Names.insert, Ordered]
  | cons current rest inductionHypothesis =>
      have restOrdered : Ordered rest := (List.pairwise_cons.1 ordered).2
      have headBelow := (List.pairwise_cons.1 ordered).1
      simp only [Names.insert]
      split
      next below =>
        refine List.pairwise_cons.2 ⟨?_, ordered⟩
        intro other member
        rcases List.mem_cons.1 member with same | later
        · exact same ▸ below
        · exact String.lt_trans below (headBelow other later)
      next notBelow =>
        split
        next => exact ordered
        next different =>
          refine List.pairwise_cons.2 ⟨?_, inductionHypothesis restOrdered⟩
          intro other member
          rcases mem_insert.1 member with same | later
          · exact same ▸ Std.lt_of_le_of_ne (String.not_lt.1 notBelow) (Ne.symm different)
          · exact headBelow other later

end Names

/-- A set of names, listed in increasing order. -/
structure NameSet where
  toList : List String
  ordered : Names.Ordered toList

namespace NameSet

instance : DecidableEq NameSet := fun first second =>
  match decEq first.toList second.toList with
  | .isTrue same => .isTrue (by cases first; cases second; cases same; rfl)
  | .isFalse different => .isFalse (fun same => different (congrArg toList same))

instance : Repr NameSet := ⟨fun names precedence => reprPrec names.toList precedence⟩

def empty : NameSet := ⟨[], List.Pairwise.nil⟩

instance : Inhabited NameSet := ⟨empty⟩

instance : Membership String NameSet := ⟨fun names name => name ∈ names.toList⟩

instance (name : String) (names : NameSet) : Decidable (name ∈ names) :=
  inferInstanceAs (Decidable (name ∈ names.toList))

def insert (names : NameSet) (name : String) : NameSet :=
  ⟨Names.insert name names.toList, names.ordered.insert name⟩

def erase (names : NameSet) (name : String) : NameSet :=
  ⟨names.toList.filter (· ≠ name), List.Pairwise.filter _ names.ordered⟩

def ofList (names : List String) : NameSet := names.foldl insert empty

def size (names : NameSet) : Nat := names.toList.length

def isEmpty (names : NameSet) : Bool := names.toList.isEmpty

def filter (names : NameSet) (keep : String → Bool) : NameSet :=
  ⟨names.toList.filter keep, List.Pairwise.filter _ names.ordered⟩

def union (first second : NameSet) : NameSet := second.toList.foldl insert first

/-- The members of the first set that are not in the second. -/
def diff (first second : NameSet) : NameSet := first.filter fun name => decide (name ∉ second)

theorem mem_insert {name other : String} {names : NameSet} :
    other ∈ names.insert name ↔ other = name ∨ other ∈ names :=
  Names.mem_insert

theorem mem_filter {name : String} {names : NameSet} {keep : String → Bool} :
    name ∈ names.filter keep ↔ name ∈ names ∧ keep name :=
  List.mem_filter

end NameSet

end JobGraph
