/-!
# Maps with text keys

A map is the list of its entries in strictly increasing order of their keys, so two maps with the
same entries are the same list, and listing a map lists it in order.  Text is ordered by code
points.

`Entries` holds the operations on plain lists of entries; `KeyMap` is such a list together with the
proof of its order.
-/

namespace JobGraph

namespace Entries

variable {α : Type}

def find? (key : String) : List (String × α) → Option α
  | [] => none
  | (current, value) :: rest => if current = key then some value else find? key rest

/-- Stores a value under a key, in place of an older one. -/
def insert (key : String) (value : α) : List (String × α) → List (String × α)
  | [] => [(key, value)]
  | (current, old) :: rest =>
    if key < current then (key, value) :: (current, old) :: rest
    else if key = current then (key, value) :: rest
    else (current, old) :: insert key value rest

def erase (key : String) (entries : List (String × α)) : List (String × α) :=
  entries.filter fun entry => entry.1 ≠ key

/-- The entries stand in strictly increasing order of their keys. -/
def Ordered (entries : List (String × α)) : Prop :=
  entries.Pairwise fun first second => first.1 < second.1

theorem mem_insert {key : String} {value : α} {entries : List (String × α)}
    {entry : String × α} (member : entry ∈ insert key value entries) :
    entry = (key, value) ∨ entry ∈ entries := by
  induction entries with
  | nil => simpa [insert] using member
  | cons head rest inductionHypothesis =>
      obtain ⟨current, old⟩ := head
      simp only [insert] at member
      split at member
      · simpa using member
      · split at member
        · rcases List.mem_cons.1 member with same | later
          · exact Or.inl same
          · exact Or.inr (List.mem_cons_of_mem _ later)
        · rcases List.mem_cons.1 member with same | later
          · exact Or.inr (same ▸ List.mem_cons_self)
          · rcases inductionHypothesis later with same | inRest
            · exact Or.inl same
            · exact Or.inr (List.mem_cons_of_mem _ inRest)

theorem Ordered.insert {entries : List (String × α)} (ordered : Ordered entries)
    (key : String) (value : α) : Ordered (Entries.insert key value entries) := by
  induction entries with
  | nil => simp [Entries.insert, Ordered]
  | cons head rest inductionHypothesis =>
      obtain ⟨current, old⟩ := head
      have restOrdered : Ordered rest := (List.pairwise_cons.1 ordered).2
      have headBelow := (List.pairwise_cons.1 ordered).1
      simp only [Entries.insert]
      split
      next below =>
        refine List.pairwise_cons.2 ⟨?_, ordered⟩
        intro entry member
        rcases List.mem_cons.1 member with same | later
        · exact same ▸ below
        · exact String.lt_trans below (headBelow entry later)
      next notBelow =>
        split
        next same =>
          subst same
          exact List.pairwise_cons.2 ⟨headBelow, restOrdered⟩
        next different =>
          refine List.pairwise_cons.2 ⟨?_, inductionHypothesis restOrdered⟩
          intro entry member
          rcases mem_insert member with same | later
          · subst same
            exact Std.lt_of_le_of_ne (String.not_lt.1 notBelow) (Ne.symm different)
          · exact headBelow entry later

theorem Ordered.erase {entries : List (String × α)} (ordered : Ordered entries)
    (key : String) : Ordered (Entries.erase key entries) :=
  List.Pairwise.filter _ ordered

end Entries

/-- A map from text to values, listed in increasing order of its keys. -/
structure KeyMap (α : Type) where
  entries : List (String × α)
  ordered : Entries.Ordered entries

namespace KeyMap

variable {α : Type}

instance [DecidableEq α] : DecidableEq (KeyMap α) := fun first second =>
  match decEq first.entries second.entries with
  | .isTrue same => .isTrue (by cases first; cases second; cases same; rfl)
  | .isFalse different => .isFalse (fun same => different (congrArg entries same))

instance [Repr α] : Repr (KeyMap α) := ⟨fun map precedence => reprPrec map.entries precedence⟩

def empty : KeyMap α := ⟨[], List.Pairwise.nil⟩

instance : Inhabited (KeyMap α) := ⟨empty⟩

def find? (map : KeyMap α) (key : String) : Option α := Entries.find? key map.entries

def contains (map : KeyMap α) (key : String) : Bool := (map.find? key).isSome

def insert (map : KeyMap α) (key : String) (value : α) : KeyMap α :=
  ⟨Entries.insert key value map.entries, map.ordered.insert key value⟩

def erase (map : KeyMap α) (key : String) : KeyMap α :=
  ⟨Entries.erase key map.entries, map.ordered.erase key⟩

/-- The map of a list of entries; of two with the same key the later one counts. -/
def ofList (entries : List (String × α)) : KeyMap α :=
  entries.foldl (fun map entry => map.insert entry.1 entry.2) empty

def keys (map : KeyMap α) : List String := map.entries.map Prod.fst

def size (map : KeyMap α) : Nat := map.entries.length

def isEmpty (map : KeyMap α) : Bool := map.entries.isEmpty

/-- The first map overlaid with the second: where both have a key, the second counts. -/
def union (lower upper : KeyMap α) : KeyMap α :=
  upper.entries.foldl (fun map entry => map.insert entry.1 entry.2) lower

@[ext]
theorem ext_entries {first second : KeyMap α} (same : first.entries = second.entries) :
    first = second := by
  cases first
  cases second
  cases same
  rfl

end KeyMap

end JobGraph
