import JobGraph.Proofs.Checkpoint.RestartPlans

/-!
# State maps stay partitions

A state map is changed in two ways.  `insert` clears every set of a name before it puts the name
into one; `apply` clears only the set that a transition comes from, so it keeps a name in one set
only if that is where the name was.  A history is a sequence of changes in which every transition
comes from the state that its task was given last.  After a history the map holds every name in the
state that it was given last and in no other (`History.tells`), and this decides all that the map
is asked (`histories_keep_partition`).
-/

namespace JobGraph.StateMap

/-! ## Maps that tell the state of every name -/

/-- Each name is in the state that `given` tells and in no other, or in none. -/
def Tells (map : StateMap) (given : String → Option TaskState) : Prop :=
  ∀ state name, name ∈ map.names state ↔ given name = some state

namespace Tells

variable {map : StateMap} {given : String → Option TaskState} {states : List TaskState}

theorem allIn (names : List String) (state : TaskState) :
    (StateMap.allIn names state).Tells fun name => if name ∈ names then some state else none := by
  intro other name
  rw [places_allIn names state other name]
  by_cases listed : name ∈ names <;> simp [listed]

theorem insert (tells : map.Tells given) (name : String) (state : TaskState) :
    (map.insert name state).Tells (Function.update given name (some state)) := by
  intro other found
  rw [mem_names_insert]
  by_cases same : found = name
  · subst same
    rw [if_pos rfl, Function.update_self, Option.some_inj, eq_comm]
  · rw [if_neg same, Function.update_of_ne same, tells other found]

/-- A transition moves its task if it comes from where the task is, or if the task is nowhere. -/
theorem apply (tells : map.Tells given) {transition : Transition}
    (source : ∀ state ∈ given transition.task, transition.source = state) :
    (map.apply transition).Tells
      (Function.update given transition.task (some transition.target)) := by
  intro state name
  rw [mem_names_apply, tells state name]
  by_cases same : name = transition.task
  · subst same
    have left : ¬(given transition.task = some state ∧
        ¬(state = transition.source ∧ transition.task = transition.task)) := by
      rintro ⟨here, elsewhere⟩
      exact elsewhere ⟨(source state here).symm, rfl⟩
    rw [or_iff_right left, Function.update_self, Option.some_inj, eq_comm (a := state)]
    exact and_iff_left rfl
  · simp [same]

theorem once (tells : map.Tells given) {name : String} {first second : TaskState}
    (firstly : name ∈ map.names first) (again : name ∈ map.names second) : first = second :=
  Option.some_inj.1 (((tells first name).1 firstly).symm.trans ((tells second name).1 again))

theorem stateOf? (tells : map.Tells given) (name : String) : map.stateOf? name = given name := by
  cases told : given name with
  | none =>
    rw [StateMap.stateOf?, List.find?_eq_none]
    intro state _
    simp [tells state name, told]
  | some state =>
    have decides : ∀ other, decide (name ∈ map.names other) = decide (state = other) := by
      intro other
      simp [tells other name, told]
    simp only [StateMap.stateOf?, decides]
    cases state <;> rfl

/-- No name is listed twice if every name is in one set only. -/
theorem nodup_listing (tells : map.Tells given) (fresh : states.Nodup) :
    (map.listing states).Nodup := by
  refine List.nodup_flatMap.2 ⟨fun state _ => (map.names state).nodup, fresh.imp ?_⟩
  intro first second different name firstly again
  exact different (tells.once firstly again)

theorem size_namesIn (tells : map.Tells given) (fresh : states.Nodup) :
    (map.namesIn states).size = map.countIn states := by
  rw [namesIn_eq_ofList, countIn_eq_length]
  exact (NameSet.size_ofList_eq_iff.2 (tells.nodup_listing fresh)).symm

theorem mem_namesIn (tells : map.Tells given) {name : String} :
    name ∈ map.namesIn states ↔ ∃ state ∈ states, given name = some state := by
  rw [namesIn_eq_ofList, NameSet.mem_ofList, mem_listing]
  simp only [tells _ name]

theorem total (tells : map.Tells given) {names : List String}
    (known : ∀ name, name ∈ names ↔ ∃ state, given name = some state) :
    map.total = names.dedup.length := by
  rw [StateMap.total, ← tells.size_namesIn (by decide)]
  apply NameSet.size_eq_length names.nodup_dedup
  intro name
  simp only [tells.mem_namesIn, TaskState.mem_all, true_and, List.mem_dedup, known]

theorem isSettled_iff (tells : map.Tells given) :
    map.isSettled = true ↔ ∀ name, ∀ state ∈ given name, state ∉ TaskState.active := by
  rw [isSettled, beq_iff_eq, countIn_eq_length, List.length_eq_zero_iff,
    List.eq_nil_iff_forall_not_mem]
  simp only [mem_listing, tells _ _, Option.mem_def, not_exists, not_and]
  exact forall_congr' fun name => forall_congr' fun state => imp_not_comm

end Tells

/-- The sizes of the sets of some states, added up. -/
theorem sum_sizes (map : StateMap) (states : List TaskState) :
    (states.map fun state => (map.names state).size).sum = map.countIn states := by
  rw [countIn_eq_length, listing, List.length_flatMap]
  rfl

/-! ## Changes -/

/-- A change of a state map. -/
inductive Edit where
  | insert (name : String) (state : TaskState)
  | apply (transition : Transition)
  deriving DecidableEq, Repr

namespace Edit

/-- The name that is moved. -/
def name : Edit → String
  | .insert name _ => name
  | .apply transition => transition.task

/-- The state that the name is given. -/
def target : Edit → TaskState
  | .insert _ state => state
  | .apply transition => transition.target

def run (map : StateMap) : Edit → StateMap
  | .insert name state => map.insert name state
  | .apply transition => map.apply transition

end Edit

/-- The map after some changes. -/
def edited (map : StateMap) (edits : List Edit) : StateMap := edits.foldl Edit.run map

/-- A change of one name leaves every other name where it was. -/
theorem mem_names_run {map : StateMap} {edit : Edit} {name : String} (other : name ≠ edit.name)
    (state : TaskState) : name ∈ (edit.run map).names state ↔ name ∈ map.names state := by
  cases edit with
  | insert moved target => exact mem_names_insert.trans (iff_of_eq (if_neg other))
  | apply transition =>
    have apart : name ≠ transition.task := other
    simp [Edit.run, mem_names_apply, apart]

theorem stateOf?_run {map : StateMap} {edit : Edit} {name : String} (other : name ≠ edit.name) :
    (edit.run map).stateOf? name = map.stateOf? name := by
  simp only [StateMap.stateOf?, mem_names_run other]

/-! ## Histories -/

section Histories

variable {names : List String} {start : TaskState} {edits : List Edit}

/-- The state that a name was given last: by the last change of it, or at the start. -/
def given? (names : List String) (start : TaskState) (edits : List Edit) (name : String) :
    Option TaskState :=
  ((edits.filter fun edit => edit.name = name).getLast?.map Edit.target).or
    (if name ∈ names then some start else none)

/-- Changes of a map in which some names are all in one state.  A transition comes from the state
that its task was given last; nothing is asked of one whose task is new. -/
inductive History (names : List String) (start : TaskState) : List Edit → Prop
  | nil : History names start []
  | insert {edits : List Edit} (before : History names start edits) (name : String)
      (state : TaskState) : History names start (edits ++ [.insert name state])
  | apply {edits : List Edit} (before : History names start edits) {transition : Transition}
      (source : ∀ state ∈ given? names start edits transition.task, transition.source = state) :
      History names start (edits ++ [.apply transition])

theorem given?_concat (names : List String) (start : TaskState) (edits : List Edit) (edit : Edit) :
    given? names start (edits ++ [edit]) =
      Function.update (given? names start edits) edit.name (some edit.target) := by
  funext name
  by_cases same : name = edit.name
  · subst same
    simp [given?]
  · rw [Function.update_of_ne same]
    simp [given?, Ne.symm same]

theorem exists_given?_iff (name : String) :
    name ∈ names ++ edits.map Edit.name ↔ ∃ state, given? names start edits name = some state := by
  rw [← Option.isSome_iff_exists, given?, Option.isSome_or, Bool.or_eq_true, List.mem_append,
    or_comm]
  apply or_congr
  · rw [Option.isSome_map, List.getLast?_isSome, Ne, List.filter_eq_nil_iff]
    simp
  · simp

/-- After a history the map tells of every name the state that it was given last. -/
theorem History.tells (history : History names start edits) :
    ((allIn names start).edited edits).Tells (given? names start edits) := by
  induction history with
  | nil => exact Tells.allIn names start
  | insert _ name state inductionHypothesis =>
    rw [given?_concat, edited, List.foldl_append]
    exact inductionHypothesis.insert name state
  | apply _ source inductionHypothesis =>
    rw [given?_concat, edited, List.foldl_append]
    exact inductionHypothesis.apply source

/-- After any history, every name that was there at the start or has been moved since is in exactly
one set, that of the state it was given last, and no other name is in any.  The sizes of the sets
add up to the number of names, those of the sets of some states to the number of names in one of
them, and the map is settled just if no name is in a state of tasks that have not ended.  Whatever
change comes next, it leaves every name but its own where it was. -/
theorem histories_keep_partition (history : History names start edits) :
    let map := (allIn names start).edited edits
    let known := names ++ edits.map Edit.name
    (∀ name ∈ known, ∃! state, name ∈ map.names state) ∧
    (∀ state, ∀ name ∈ map.names state, name ∈ known) ∧
    (∀ name, map.stateOf? name = given? names start edits name) ∧
    map.total = known.dedup.length ∧
    (TaskState.all.map fun state => (map.names state).size).sum = map.total ∧
    (∀ states : List TaskState, states.Nodup → (map.namesIn states).size = map.countIn states ∧
      ∀ name, name ∈ map.namesIn states ↔ ∃ state ∈ states, map.stateOf? name = some state) ∧
    (map.isSettled = true ↔
      ∀ name, ∀ state ∈ map.stateOf? name, state ∉ [.init, .pending, .running]) ∧
    ∀ (edit : Edit) (name : String), name ≠ edit.name →
      (edit.run map).stateOf? name = map.stateOf? name ∧
        ∀ state, name ∈ (edit.run map).names state ↔ name ∈ map.names state := by
  intro map known
  have tells : map.Tells (given? names start edits) := history.tells
  have known_iff : ∀ name, name ∈ known ↔ ∃ state, given? names start edits name = some state :=
    exists_given?_iff
  refine ⟨fun name listed => ?_, fun state name held => ?_, tells.stateOf?,
    tells.total known_iff, map.sum_sizes TaskState.all, fun states fresh => ?_, ?_,
    fun edit name other => ⟨stateOf?_run other, mem_names_run other⟩⟩
  · obtain ⟨state, told⟩ := (known_iff name).1 listed
    have held := (tells state name).2 told
    exact ⟨state, held, fun other again => tells.once again held⟩
  · exact (known_iff name).2 ⟨state, (tells state name).1 held⟩
  · refine ⟨tells.size_namesIn fresh, fun name => ?_⟩
    rw [tells.stateOf?, tells.mem_namesIn]
  · simp only [tells.stateOf?]
    exact tells.isSettled_iff

end Histories

/-- Changes by which a new name comes by a transition, a task moves from a state to itself, and
another is put back by hand between two transitions. -/
def Edit.motley : List Edit :=
  [.apply ⟨"a", .init, .pending⟩, .apply ⟨"new", .aborted, .failed⟩,
    .apply ⟨"a", .pending, .pending⟩,
    .insert "b" .completed, .apply ⟨"b", .completed, .skip⟩]

theorem motley_changes_keep_partition :
    History ["b", "a", "b"] .init Edit.motley ∧
      ((allIn ["b", "a", "b"] .init).edited Edit.motley).stateOf? "a" = some .pending ∧
      ((allIn ["b", "a", "b"] .init).edited Edit.motley).stateOf? "b" = some .skip ∧
      ((allIn ["b", "a", "b"] .init).edited Edit.motley).total = 3 ∧
      ((allIn ["b", "a", "b"] .init).edited Edit.motley).isSettled = false := by
  have history : History ["b", "a", "b"] .init Edit.motley :=
    ((((History.nil.apply (by decide)).apply (by decide)).apply (by decide)).insert "b"
      .completed).apply (by decide)
  obtain ⟨-, -, told, total, -, -, settled, -⟩ := histories_keep_partition history
  refine ⟨history, told "a", told "b", total, Bool.eq_false_iff.2 fun done => ?_⟩
  exact settled.1 done "a" .pending (told "a") (by decide)

end JobGraph.StateMap
