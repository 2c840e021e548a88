import JobGraph.Json.Decode
import JobGraph.Proofs.Json.ReadBack
import JobGraph.Run.Store

/-!
# Records read back

A record that is written as an object with all its fields in their order is read as those fields
(`fields?_tree`), a list of names as that list, and a store as that store if none of its values
nests too deep (`map?_tree`).  In whatever order the members of an object stand, each field of the
record is the value of the only member with its name (`gathers_of_fieldsOfMembers?`).
-/

namespace JobGraph

open Json (Value Tree)

/-! ## Maps and lists -/

/-- A store whose values can all be read back. -/
def Store.Plain (store : Store) : Prop := ∀ entry ∈ store.entries, entry.2.Plain

namespace Json.Tree

/-- A map is read back if all its values are. -/
private theorem foldlM_treeMembers (room : Nat) (members : List (String × Value)) :
    ∀ known whole : KeyMap Value, whole.entries = known.entries ++ members →
      (∀ member ∈ members, member.2.Plain) →
        (Value.treeMembers members).foldlM
          (fun map member => do
            let key ← member.1
            let value ← member.2.valueWithin? room
            return map.insert key value) known =
          if Value.depthMembers members ≤ room then some whole else none := by
  induction members with
  | nil =>
    intro known whole same _
    obtain rfl : whole = known := KeyMap.ext_entries (by simpa using same)
    simp [Value.treeMembers, Value.depthMembers]
  | cons member rest inductionHypothesis =>
    intro known whole same plain
    obtain ⟨key, value⟩ := member
    have moved : whole.entries = known.entries ++ [(key, value)] ++ rest := by simpa using same
    have ordered := moved ▸ whole.ordered
    have inserted : (known.insert key value).entries = known.entries ++ [(key, value)] :=
      Entries.insert_last (List.pairwise_append.1 ordered).1
    have others := inductionHypothesis (known.insert key value) whole (by rw [inserted, moved])
      fun member listed => plain member (List.mem_cons_of_mem _ listed)
    have first := (plain (key, value) List.mem_cons_self).valueWithin?_tree room
    rw [Value.treeMembers, List.foldlM_cons, Value.depthMembers]
    by_cases here : value.depth ≤ room
    · simpa [first, here] using others
    · simp [first, here]

theorem map?_tree {store : Store} (plain : store.Plain) (room : Nat) :
    (Value.ofMap store).tree.map? (Tree.valueWithin? room) =
      if Value.depthMembers store.entries ≤ room then some store else none :=
  foldlM_treeMembers room store.entries .empty store rfl plain

theorem list?_tree (names : List String) :
    (Value.ofNames names).tree.list? Tree.text? = some names := by
  change (Value.treeItems (names.map .str)).mapM Tree.text? = some names
  induction names with
  | nil => rfl
  | cons name rest inductionHypothesis =>
    simp [Value.treeItems, Value.tree, Tree.text?, inductionHypothesis]

end Json.Tree

namespace Json.Value

theorem held_ofNames (names : List String) : (Value.ofNames names).Held := by
  change HeldItems (names.map .str)
  induction names with
  | nil => trivial
  | cons name rest inductionHypothesis => exact ⟨trivial, inductionHypothesis⟩

theorem depth_ofNames (names : List String) : (Value.ofNames names).depth = 1 := by
  change depthItems (names.map .str) + 1 = 1
  induction names with
  | nil => rfl
  | cons name rest inductionHypothesis =>
    simpa [depthItems, depth] using inductionHypothesis

theorem held_ofMap {store : Store} (plain : store.Plain) : (Value.ofMap store).Held :=
  heldMembers_iff.2 fun entry listed => (plain entry listed).held

end Json.Value

/-! ## Records -/

namespace Json.Tree

theorem placeField_append {α : Type} {key : String} (value : α) {before : List String}
    (after : List String) {known : List (Option α)} (unknown : List (Option α))
    (absent : key ∉ before) (length : known.length = before.length) :
    placeField key value (before ++ key :: after) (known ++ none :: unknown) =
      some (known ++ some value :: unknown) := by
  induction before generalizing known with
  | nil =>
    obtain rfl : known = [] := List.length_eq_zero_iff.1 length
    simp [placeField]
  | cons name before inductionHypothesis =>
    cases known with
    | nil => simp at length
    | cons field known =>
      have other : name ≠ key := fun same => absent (same ▸ List.mem_cons_self)
      have rest := inductionHypothesis
        (fun listed => absent (List.mem_cons_of_mem _ listed)) (Nat.succ.inj length)
      simp [placeField, other, rest]

/-- A record with all its fields in their order is read as its fields. -/
theorem fieldsOfMembers?_eq {α : Type} (members : List (String × α))
    (distinct : (members.map Prod.fst).Nodup) :
    fieldsOfMembers? (members.map Prod.fst) (members.map fun member => (some member.1, member.2)) =
      some (members.map fun member => some member.2) := by
  have placed : ∀ done rest : List (String × α), done ++ rest = members →
      (rest.map fun member => (some member.1, member.2)).foldlM
        (fun fields (member : Option String × α) => do
          let key ← member.1
          placeField key member.2 (members.map Prod.fst) fields)
        ((done.map fun member => some member.2) ++ rest.map fun _ => none) =
          some (members.map fun member => some member.2) := by
    intro done rest same
    induction rest generalizing done with
    | nil => simp [← same]
    | cons member rest inductionHypothesis =>
      have others := inductionHypothesis (done ++ [member]) (by simp [← same])
      have absent : member.1 ∉ done.map Prod.fst := by
        rw [← same, List.map_append, List.nodup_append] at distinct
        exact fun listed => distinct.2.2 _ listed _ List.mem_cons_self rfl
      have length : (done.map fun member => some member.2).length =
          (done.map Prod.fst).length := by simp
      have here :=
        placeField_append member.2 (rest.map Prod.fst) (rest.map fun _ => none) absent length
      have names : members.map Prod.fst = done.map Prod.fst ++ member.1 :: rest.map Prod.fst := by
        simp [← same]
      rw [← names] at here
      simp only [List.map_cons, List.foldlM_cons, Option.bind_eq_bind, Option.bind_some, here]
      simpa using others
  have blanks : (members.map Prod.fst).map (fun _ => (none : Option α)) =
      members.map fun _ => none := List.map_map ..
  rw [fieldsOfMembers?, blanks]
  exact placed [] members rfl

theorem treeMembers_eq (members : List (String × Value)) :
    Value.treeMembers members =
      (members.map fun member => (member.1, member.2.tree)).map
        fun member => (some member.1, member.2) := by
  induction members with
  | nil => rfl
  | cons member rest inductionHypothesis => simp [Value.treeMembers, inductionHypothesis]

theorem fields?_tree (members : List (String × Value)) (distinct : (members.map Prod.fst).Nodup) :
    (Value.obj members).tree.fields? (members.map Prod.fst) =
      some (members.map fun member => some member.2.tree) := by
  have same : (members.map fun member => (member.1, member.2.tree)).map Prod.fst =
      members.map Prod.fst := by simp
  have read := fieldsOfMembers?_eq (members.map fun member => (member.1, member.2.tree))
    (same ▸ distinct)
  rw [same, ← treeMembers_eq, List.map_map] at read
  exact read

/-! ### Fields by their names -/

section Fields

variable {α : Type} {names : List String} {fields : List (Option α)}

/-- The values of the members with a key, in their order. -/
def valuesOf (key : String) (members : List (Option String × α)) : List α :=
  members.filterMap fun member => if member.1 = some key then some member.2 else none

theorem mem_of_mem_valuesOf {key : String} {members : List (Option String × α)} {value : α}
    (listed : value ∈ valuesOf key members) : (some key, value) ∈ members := by
  obtain ⟨⟨name, other⟩, member, found⟩ := List.mem_filterMap.1 listed
  split_ifs at found with same
  cases found
  exact same ▸ member

theorem valuesOf_concat (name key : String) (members : List (Option String × α)) (value : α) :
    valuesOf name (members ++ [(some key, value)]) =
      valuesOf name members ++ if key = name then [value] else [] := by
  rw [valuesOf, List.filterMap_append]
  by_cases same : key = name <;> simp [same, valuesOf]

/-- Each field holds the values of the members with its name, of which there is one at most. -/
def Gathers (names : List String) (members : List (Option String × α))
    (fields : List (Option α)) : Prop :=
  List.Forall₂ (fun name field => field.toList = valuesOf name members) names fields

theorem Gathers.concat_of_not_mem {members : List (Option String × α)} {key : String}
    (gathers : Gathers names members fields) (absent : key ∉ names) (value : α) :
    Gathers names (members ++ [(some key, value)]) fields := by
  induction gathers with
  | nil => exact .nil
  | cons held _ inductionHypothesis =>
    obtain ⟨other, later⟩ := not_or.1 (mt List.mem_cons.2 absent)
    refine .cons ?_ (inductionHypothesis later)
    rw [held, valuesOf_concat, if_neg other, List.append_nil]

theorem Gathers.placeField {members : List (Option String × α)} {key : String} {value : α}
    {placed : List (Option α)} (gathers : Gathers names members fields) (distinct : names.Nodup)
    (found : placeField key value names fields = some placed) :
    Gathers names (members ++ [(some key, value)]) placed := by
  induction gathers generalizing placed with
  | nil =>
    cases found
    exact .nil
  | @cons name field names fields held rest inductionHypothesis =>
    obtain ⟨new, distinct⟩ := List.nodup_cons.1 distinct
    rw [Tree.placeField] at found
    split_ifs at found with same taken
    · cases found
      subst same
      have empty : field = none := by simpa using taken
      rw [empty, Option.toList_none] at held
      refine .cons ?_ (Gathers.concat_of_not_mem rest new value)
      rw [valuesOf_concat, ← held, if_pos rfl]
      rfl
    · obtain ⟨others, inner, rfl⟩ := Option.map_eq_some_iff.1 found
      refine .cons ?_ (inductionHypothesis distinct inner)
      rw [held, valuesOf_concat, if_neg (Ne.symm same), List.append_nil]

/-- The fields of a record are the values of its members by their keys. -/
theorem gathers_of_fieldsOfMembers? {members : List (Option String × α)} (distinct : names.Nodup)
    (found : fieldsOfMembers? names members = some fields) : Gathers names members fields := by
  have gathered : ∀ (rest done : List (Option String × α)) (known : List (Option α)),
      Gathers names done known →
        rest.foldlM
          (fun fields (member : Option String × α) => do
            let key ← member.1
            placeField key member.2 names fields) known = some fields →
          Gathers names (done ++ rest) fields := by
    intro rest
    induction rest with
    | nil =>
      rintro done known gathers same
      cases same
      rwa [List.append_nil]
    | cons member rest inductionHypothesis =>
      intro done known gathers folded
      obtain ⟨key, value⟩ := member
      rw [List.foldlM_cons] at folded
      obtain ⟨next, put, further⟩ := Option.bind_eq_some_iff.1 folded
      obtain ⟨name, rfl, placed⟩ := Option.bind_eq_some_iff.1 put
      have all := inductionHypothesis _ next (gathers.placeField distinct placed) further
      rwa [List.append_assoc] at all
  refine gathered members [] _ ?_ found
  clear distinct found gathered
  induction names with
  | nil => exact .nil
  | cons name names inductionHypothesis => exact .cons rfl inductionHypothesis

/-- The fields that an array has are its items at their places. -/
theorem getElem?_of_fieldsOfItems? {items : List α}
    (found : fieldsOfItems? names items = some fields) {place : Nat} {value : α}
    (there : fields[place]? = some (some value)) :
    items[place]? = some value := by
  rw [fieldsOfItems?] at found
  split_ifs at found
  cases found
  rcases Nat.lt_or_ge place items.length with inside | outside
  · rw [List.getElem?_append_left (by simpa using inside), List.getElem?_map] at there
    simpa using there
  · rw [List.getElem?_append_right (by simpa using outside)] at there
    simp [List.getElem?_replicate] at there

end Fields

end Json.Tree

end JobGraph
