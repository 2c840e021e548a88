import JobGraph.KeyMap
import JobGraph.NameSet

/-!
# Looking things up

What `find?` says of a map after each way to make one, and the members of a set of names after each
operation.  Sets with the same members are the same set, since both list them in order.
-/

namespace JobGraph

/-! ## Results of steps in a row -/

/-- If two steps in a row succeed, the first succeeds and the second goes on with its value. -/
theorem exists_of_bind {ε α β : Type} {first : Except ε α} {then_ : α → Except ε β} {result : β}
    (ok : first >>= then_ = .ok result) :
    ∃ value, first = .ok value ∧ then_ value = .ok result := by
  cases first with
  | error problem => cases ok
  | ok value => exact ⟨value, rfl, ok⟩

theorem mapError_eq_ok {ε ζ α : Type} {result : Except ε α} {tell : ε → ζ} {value : α} :
    result.mapError tell = .ok value ↔ result = .ok value := by
  cases result with
  | error problem =>
    constructor
    · rintro ⟨⟩
    · rintro ⟨⟩
  | ok found =>
    constructor
    · rintro ⟨⟩
      rfl
    · rintro ⟨⟩
      rfl

/-! ## Maps with text keys -/

namespace Entries

variable {α : Type}

theorem find?_insert (key other : String) (value : α) (entries : List (String × α)) :
    find? other (insert key value entries) =
      if other = key then some value else find? other entries := by
  induction entries with
  | nil => simp only [insert, find?, eq_comm]
  | cons head rest inductionHypothesis =>
      obtain ⟨current, old⟩ := head
      simp only [insert]
      split
      · simp only [find?, eq_comm (a := key)]
      · split
        next same =>
          subst same
          simp only [find?, eq_comm (a := key)]
          by_cases found : other = key
          · simp only [found, if_true]
          · simp only [found, if_false]
        next different =>
          simp only [find?, inductionHypothesis]
          by_cases found : current = other
          · subst found
            simp only [if_true, Ne.symm different, if_false]
          · simp only [found, if_false]

theorem mem_of_find? {key : String} {value : α} {entries : List (String × α)}
    (found : find? key entries = some value) : (key, value) ∈ entries := by
  induction entries with
  | nil => cases found
  | cons head rest inductionHypothesis =>
      obtain ⟨current, old⟩ := head
      rw [find?] at found
      split at found
      next same =>
        cases found
        exact same ▸ List.mem_cons_self
      next => exact List.mem_cons_of_mem _ (inductionHypothesis found)

theorem find?_erase (key other : String) (entries : List (String × α)) :
    find? other (erase key entries) = if other = key then none else find? other entries := by
  induction entries with
  | nil => rw [erase, List.filter_nil, find?, ite_self]
  | cons head rest inductionHypothesis =>
      obtain ⟨current, value⟩ := head
      rw [erase] at inductionHypothesis ⊢
      by_cases gone : current = key
      · subst gone
        rw [List.filter_cons_of_neg (by simp), inductionHypothesis, find?]
        by_cases same : other = current
        · rw [if_pos same, if_pos same]
        · rw [if_neg same, if_neg same, if_neg (Ne.symm same)]
      · rw [List.filter_cons_of_pos (by simpa using gone), find?, find?, inductionHypothesis]
        by_cases found : current = other
        · rw [if_pos found, if_pos found, if_neg (found ▸ gone)]
        · rw [if_neg found, if_neg found]

theorem mem_keys_iff {key : String} {entries : List (String × α)} :
    key ∈ entries.map Prod.fst ↔ (find? key entries).isSome := by
  induction entries with
  | nil => simp [find?]
  | cons head rest inductionHypothesis =>
      obtain ⟨current, value⟩ := head
      rw [List.map_cons, List.mem_cons, inductionHypothesis, find?]
      by_cases same : current = key
      · simp [same]
      · simp [same, Ne.symm same]

/-- A key that comes after all others is stored at the end. -/
theorem insert_last {key : String} {value : α} {entries : List (String × α)}
    (ordered : Ordered (entries ++ [(key, value)])) :
    insert key value entries = entries ++ [(key, value)] := by
  induction entries with
  | nil => rfl
  | cons head rest inductionHypothesis =>
      obtain ⟨current, old⟩ := head
      obtain ⟨first, others⟩ := List.pairwise_cons.1 ordered
      have below : current < key := first (key, value) (by simp)
      rw [insert, if_neg (String.lt_asymm below), if_neg (Std.ne_of_lt below).symm,
        inductionHypothesis others]
      rfl

end Entries

namespace KeyMap

variable {α : Type}

@[simp]
theorem find?_empty (name : String) : (empty : KeyMap α).find? name = none := rfl

@[simp]
theorem find?_insert (map : KeyMap α) (key other : String) (value : α) :
    (map.insert key value).find? other = if other = key then some value else map.find? other :=
  Entries.find?_insert key other value map.entries

@[simp]
theorem find?_erase (map : KeyMap α) (key other : String) :
    (map.erase key).find? other = if other = key then none else map.find? other :=
  Entries.find?_erase key other map.entries

theorem mem_keys {map : KeyMap α} {key : String} : key ∈ map.keys ↔ (map.find? key).isSome :=
  Entries.mem_keys_iff

/-- The keys are listed in order, each once. -/
theorem keys_increasing (map : KeyMap α) : map.keys.Pairwise (· < ·) :=
  List.pairwise_map.2 map.ordered

private theorem find?_foldl_insert (value : String → α) (names : List String) (name : String) :
    ∀ map : KeyMap α,
      ((names.map fun other => (other, value other)).foldl
          (fun map entry => map.insert entry.1 entry.2) map).find? name =
        if name ∈ names then some (value name) else map.find? name := by
  induction names with
  | nil => intro map; simp
  | cons head rest inductionHypothesis =>
      intro map
      rw [List.map_cons, List.foldl_cons, inductionHypothesis, find?_insert]
      by_cases same : name = head
      · subst same
        simp
      · simp [same]

/-- A map made from a function on some names. -/
theorem find?_ofList_map (value : String → α) (names : List String) (name : String) :
    (ofList (names.map fun other => (other, value other))).find? name =
      if name ∈ names then some (value name) else none := by
  rw [ofList, find?_foldl_insert, find?_empty]

private theorem find?_foldl_insert_of_absent {key : String} {entries : List (String × α)}
    (absent : key ∉ entries.map Prod.fst) (map : KeyMap α) :
    (entries.foldl (fun map entry => map.insert entry.1 entry.2) map).find? key =
      map.find? key := by
  induction entries generalizing map with
  | nil => rfl
  | cons head rest inductionHypothesis =>
      rw [List.map_cons, List.mem_cons, not_or] at absent
      rw [List.foldl_cons, inductionHypothesis absent.2, find?_insert, if_neg absent.1]

theorem find?_ofList_of_absent {key : String} {entries : List (String × α)}
    (absent : key ∉ entries.map Prod.fst) : (ofList entries).find? key = none :=
  find?_foldl_insert_of_absent absent empty

/-- A map made from entries with different keys holds each of them. -/
theorem find?_ofList_of_mem {key : String} {value : α} {entries : List (String × α)}
    (distinct : (entries.map Prod.fst).Nodup) (member : (key, value) ∈ entries) :
    (ofList entries).find? key = some value := by
  obtain ⟨front, back, rfl⟩ := List.append_of_mem member
  rw [List.map_append, List.map_cons] at distinct
  have later : key ∉ back.map Prod.fst :=
    (List.nodup_cons.1 (List.nodup_append.1 distinct).2.1).1
  rw [ofList, List.foldl_append, List.foldl_cons, find?_foldl_insert_of_absent later, find?_insert,
    if_pos rfl]

private theorem entries_foldl_insert (entries : List (String × α)) :
    ∀ map : KeyMap α, Entries.Ordered (map.entries ++ entries) →
      (entries.foldl (fun map entry => map.insert entry.1 entry.2) map).entries =
        map.entries ++ entries := by
  induction entries with
  | nil =>
      intro map _
      exact (List.append_nil _).symm
  | cons head rest inductionHypothesis =>
      intro map ordered
      rw [List.append_cons] at ordered ⊢
      have inserted : (map.insert head.1 head.2).entries = map.entries ++ [head] :=
        Entries.insert_last (List.pairwise_append.1 ordered).1
      rw [← inserted] at ordered ⊢
      exact inductionHypothesis _ ordered

/-- Entries that are in the order of their keys are all that a map made from them holds. -/
theorem entries_ofList {entries : List (String × α)} (ordered : Entries.Ordered entries) :
    (ofList entries).entries = entries :=
  entries_foldl_insert entries empty ordered

/-- What is listed in a map is found in it. -/
theorem find?_of_mem {map : KeyMap α} {key : String} {value : α}
    (member : (key, value) ∈ map.entries) : map.find? key = some value := by
  have same : ofList map.entries = map := ext_entries (entries_ofList map.ordered)
  have distinct : (map.entries.map Prod.fst).Nodup :=
    map.keys_increasing.imp fun below => Std.ne_of_lt below
  rw [← same]
  exact find?_ofList_of_mem distinct member

/-- Maps in which the same is found under every key are the same. -/
theorem ext_find? {first second : KeyMap α} (same : ∀ key, first.find? key = second.find? key) :
    first = second := by
  have nodup : ∀ map : KeyMap α, map.entries.Nodup := by
    refine fun map => List.Pairwise.imp (fun below => ?_) map.ordered
    rintro rfl
    exact String.lt_irrefl _ below
  have listed : ∀ entry, entry ∈ first.entries ↔ entry ∈ second.entries := by
    rintro ⟨key, value⟩
    constructor
    · exact fun member => Entries.mem_of_find? ((same key).symm.trans (find?_of_mem member))
    · exact fun member => Entries.mem_of_find? ((same key).trans (find?_of_mem member))
  have permuted : first.entries.Perm second.entries :=
    (List.perm_ext_iff_of_nodup (nodup first) (nodup second)).2 listed
  exact ext_entries (permuted.eq_of_pairwise
    (fun _ _ _ _ below above => absurd (String.lt_trans below above) (String.lt_irrefl _))
    first.ordered second.ordered)

end KeyMap

/-! ## Sets of names -/

namespace Names

theorem Ordered.nodup {names : List String} (ordered : Ordered names) : names.Nodup :=
  List.Pairwise.imp (fun below => Std.ne_of_lt below) ordered

end Names

namespace NameSet

theorem nodup (names : NameSet) : names.toList.Nodup := names.ordered.nodup

@[simp]
theorem mem_toList {name : String} {names : NameSet} : name ∈ names.toList ↔ name ∈ names :=
  Iff.rfl

@[simp]
theorem not_mem_empty (name : String) : name ∉ empty := List.not_mem_nil

@[simp]
theorem mem_erase {name other : String} {names : NameSet} :
    other ∈ names.erase name ↔ other ∈ names ∧ other ≠ name := by
  change other ∈ names.toList.filter _ ↔ _
  simp

/-- Sets with the same members are the same. -/
theorem ext_mem {first second : NameSet} (same : ∀ name, name ∈ first ↔ name ∈ second) :
    first = second := by
  have permuted : first.toList.Perm second.toList :=
    (List.perm_ext_iff_of_nodup first.nodup second.nodup).2 same
  have equal : first.toList = second.toList :=
    permuted.eq_of_pairwise
      (fun left right _ _ below above => absurd (String.lt_trans below above) (String.lt_irrefl _))
      first.ordered second.ordered
  cases first
  cases second
  cases equal
  rfl

private theorem mem_foldl_insert {name : String} (added : List String) :
    ∀ names : NameSet, name ∈ added.foldl insert names ↔ name ∈ names ∨ name ∈ added := by
  induction added with
  | nil => intro names; simp
  | cons head rest inductionHypothesis =>
      intro names
      rw [List.foldl_cons, inductionHypothesis, mem_insert, List.mem_cons,
        or_comm (a := name = head),
        or_assoc]

@[simp]
theorem mem_ofList {name : String} {names : List String} : name ∈ ofList names ↔ name ∈ names := by
  rw [ofList, mem_foldl_insert]
  simp

@[simp]
theorem ofList_toList (names : NameSet) : ofList names.toList = names :=
  ext_mem fun _ => mem_ofList

@[simp]
theorem mem_union {name : String} {first second : NameSet} :
    name ∈ first.union second ↔ name ∈ first ∨ name ∈ second :=
  mem_foldl_insert second.toList first

/-- A set has as many members as any list of them without repetitions. -/
theorem size_eq_length {names : NameSet} {listed : List String} (distinct : listed.Nodup)
    (same : ∀ name, name ∈ names ↔ name ∈ listed) : names.size = listed.length :=
  ((List.perm_ext_iff_of_nodup names.nodup distinct).2 same).length_eq

theorem mem_diff {name : String} {first second : NameSet} :
    name ∈ first.diff second ↔ name ∈ first ∧ name ∉ second := by
  rw [diff, mem_filter, decide_eq_true_eq]

theorem size_pos_iff {names : NameSet} : 0 < names.size ↔ ∃ name, name ∈ names :=
  List.length_pos_iff_exists_mem

end NameSet

end JobGraph
