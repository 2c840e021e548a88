import JobGraph.Proofs.Containers
import JobGraph.Run.StateMap

/-!
# State maps that place every name

`map.Places names place` says that a state map holds the names of a list, each in one state, which
`place` tells, and no other name.  A map of names that are all in one state is such a map, and a
transition that starts where its task is keeps it one.  What the queries answer follows from `place`
alone, so two maps that place the same names alike are the same to every query.
-/

namespace JobGraph.StateMap

/-! ## Members of the sets -/

theorem names_set (map : StateMap) (state other : TaskState) (names : NameSet) :
    (map.set state names).names other = if other = state then names else map.names other := by
  simp only [StateMap.names, get?_set]
  split <;> rfl

@[simp]
theorem mem_names_remove {map : StateMap} {state other : TaskState} {name found : String} :
    found ∈ (map.remove state name).names other ↔
      found ∈ map.names other ∧ ¬(other = state ∧ found = name) := by
  unfold remove
  cases known : map.get? state with
  | none =>
      have nobody : found ∉ map.names state := by
        simp [StateMap.names, known]
      constructor
      · intro member
        exact ⟨member, fun same => nobody (same.1 ▸ member)⟩
      · exact And.left
  | some names =>
      have listed : map.names state = names := by simp [StateMap.names, known]
      rw [names_set]
      by_cases same : other = state
      · subst same
        simp [listed]
      · simp [same]

@[simp]
theorem mem_names_add {map : StateMap} {state other : TaskState} {name found : String} :
    found ∈ (map.add state name).names other ↔
      found ∈ map.names other ∨ (other = state ∧ found = name) := by
  rw [add, names_set]
  by_cases same : other = state
  · subst same
    rw [if_pos rfl, NameSet.mem_insert, or_comm]
    simp
  · simp [same]

theorem mem_names_apply {map : StateMap} {transition : Transition} {state : TaskState}
    {name : String} :
    name ∈ (map.apply transition).names state ↔
      (name ∈ map.names state ∧ ¬(state = transition.source ∧ name = transition.task)) ∨
        (state = transition.target ∧ name = transition.task) := by
  rw [apply, mem_names_add, mem_names_remove]

private theorem mem_names_foldl_remove {name found : String} {other : TaskState}
    (states : List TaskState) :
    ∀ map : StateMap,
      found ∈ (states.foldl (fun map state => map.remove state name) map).names other ↔
        found ∈ map.names other ∧ ¬(other ∈ states ∧ found = name) := by
  induction states with
  | nil => intro map; simp
  | cons head rest inductionHypothesis =>
      intro map
      rw [List.foldl_cons, inductionHypothesis, mem_names_remove, List.mem_cons]
      grind

theorem mem_names_insert {map : StateMap} {state other : TaskState} {name found : String} :
    found ∈ (map.insert name state).names other ↔
      if found = name then other = state else found ∈ map.names other := by
  rw [insert, mem_names_add, mem_names_foldl_remove]
  by_cases same : found = name
  · simp [same, TaskState.mem_all]
  · simp [same]

theorem not_mem_names_empty (state : TaskState) (name : String) : name ∉ empty.names state := by
  cases state <;> exact NameSet.not_mem_empty name

theorem hasFailures_iff {map : StateMap} : map.hasFailures = true ↔
    ∃ state ∈ [TaskState.failed, .defaulted, .aborted], ∃ name, name ∈ map.names state := by
  have counted : map.countIn [.failed, .defaulted, .aborted] =
      (map.names .failed).size + (map.names .defaulted).size + (map.names .aborted).size := by
    simp only [countIn, List.foldl_cons, List.foldl_nil, Nat.zero_add]
  simp only [hasFailures, counted, decide_eq_true_eq, Nat.add_pos_iff_pos_or_pos,
    NameSet.size_pos_iff, List.mem_cons, List.not_mem_nil, or_false, exists_eq_or_imp,
    exists_eq_left, or_assoc]

/-! ## Placing names -/

/-- The map holds the listed names, each in the state that `place` tells and in no other. -/
def Places (map : StateMap) (names : List String) (place : String → TaskState) : Prop :=
  ∀ state name, name ∈ map.names state ↔ name ∈ names ∧ place name = state

private theorem mem_names_foldl_insert {state other : TaskState} {found : String}
    (names : List String) :
    ∀ map : StateMap,
      found ∈ (names.foldl (fun map name => map.insert name state) map).names other ↔
        if found ∈ names then other = state else found ∈ map.names other := by
  induction names with
  | nil => intro map; simp
  | cons head rest inductionHypothesis =>
      intro map
      rw [List.foldl_cons, inductionHypothesis, mem_names_insert]
      by_cases later : found ∈ rest
      · simp [later]
      · by_cases same : found = head
        · simp [same]
        · simp [later, same]

theorem places_allIn (names : List String) (state : TaskState) :
    (allIn names state).Places names fun _ => state := by
  intro other name
  rw [allIn, mem_names_foldl_insert]
  by_cases listed : name ∈ names
  · simp [listed, eq_comm]
  · simp [listed, not_mem_names_empty]

namespace Places

variable {map : StateMap} {names : List String} {place : String → TaskState}

/-- A transition that starts where its task is moves that task and no other. -/
theorem apply (places : map.Places names place) {transition : Transition}
    (listed : transition.task ∈ names) (source : transition.source = place transition.task) :
    (map.apply transition).Places names fun name =>
      if name = transition.task then transition.target else place name := by
  intro state name
  rw [mem_names_apply, places state name]
  by_cases same : name = transition.task
  · subst same
    simp only [source, listed, if_true, true_and, and_true]
    constructor
    · rintro (⟨placed, elsewhere⟩ | target)
      · exact absurd placed.symm elsewhere
      · exact target.symm
    · intro target
      exact Or.inr target.symm
  · simp [same]

theorem stateOf? (places : map.Places names place) {name : String} (listed : name ∈ names) :
    map.stateOf? name = some (place name) := by
  have decides : ∀ state, decide (name ∈ map.names state) = decide (place name = state) := by
    intro state
    simp [places state name, listed]
  simp only [StateMap.stateOf?, decides]
  cases place name <;> rfl

theorem stateOf?_of_unlisted (places : map.Places names place) {name : String}
    (unlisted : name ∉ names) : map.stateOf? name = none := by
  rw [StateMap.stateOf?, List.find?_eq_none]
  intro state _
  simp [places state name, unlisted]

theorem stateOf?_eq_some_iff (places : map.Places names place) {name : String}
    (listed : name ∈ names) {state : TaskState} :
    map.stateOf? name = some state ↔ place name = state := by
  rw [places.stateOf? listed, Option.some_inj]

theorem allNames (places : map.Places names place) : map.allNames = NameSet.ofList names := by
  apply NameSet.ext_mem
  intro name
  simp only [StateMap.allNames, namesIn, TaskState.all, List.foldl_cons, List.foldl_nil,
    NameSet.mem_union, NameSet.not_mem_empty, NameSet.mem_ofList, places _ name, false_or]
  cases place name <;> simp

private theorem size_names (places : map.Places names place) (distinct : names.Nodup)
    (state : TaskState) :
    (map.names state).size = names.countP fun name => place name = state := by
  rw [List.countP_eq_length_filter]
  apply NameSet.size_eq_length (distinct.filter _)
  intro name
  simp [places state name]

private theorem countP_mem_cons (state : TaskState) {states : List TaskState}
    (fresh : state ∉ states) (names : List String) :
    (names.countP fun name => place name ∈ state :: states) =
      (names.countP fun name => place name = state) +
        names.countP fun name => place name ∈ states := by
  induction names with
  | nil => rfl
  | cons name rest inductionHypothesis =>
      simp only [List.countP_cons, inductionHypothesis]
      by_cases here : place name = state
      · have notLater : place name ∉ states := here ▸ fresh
        simp [here, fresh]
        omega
      · simp [here]
        omega

private theorem foldl_size (places : map.Places names place) (distinct : names.Nodup)
    (states : List TaskState) (fresh : states.Nodup) (count : Nat) :
    states.foldl (fun count state => count + (map.names state).size) count =
      count + names.countP fun name => place name ∈ states := by
  induction states generalizing count with
  | nil => simp
  | cons state rest inductionHypothesis =>
      have parts := List.nodup_cons.1 fresh
      rw [List.foldl_cons, inductionHypothesis parts.2, places.size_names distinct,
        countP_mem_cons state parts.1, Nat.add_assoc]

/-- The sizes of the sets of some states add up to the number of names placed in one of them. -/
theorem countIn (places : map.Places names place) (distinct : names.Nodup)
    {states : List TaskState} (fresh : states.Nodup) :
    map.countIn states = names.countP fun name => place name ∈ states := by
  rw [StateMap.countIn, places.foldl_size distinct states fresh, Nat.zero_add]

theorem total (places : map.Places names place) (distinct : names.Nodup) :
    map.total = names.length := by
  rw [StateMap.total, places.countIn distinct (by decide), List.countP_eq_length]
  intro name _
  exact decide_eq_true (TaskState.mem_all (place name))

theorem isSettled_iff (places : map.Places names place) (distinct : names.Nodup) :
    map.isSettled = true ↔ ∀ name ∈ names, (place name).isTerminal = true := by
  rw [isSettled, places.countIn distinct (by decide), beq_iff_eq, List.countP_eq_zero]
  simp [TaskState.isTerminal]

end Places

end JobGraph.StateMap
