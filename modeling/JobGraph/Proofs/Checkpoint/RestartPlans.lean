import JobGraph.Proofs.Graph.ReverseEdges
import JobGraph.Proofs.Run.Resume
import Mathlib.Data.List.Dedup
import Mathlib.Data.List.Pairwise

/-!
# Plans to resume

A snapshot may have been written by hand, so its map may lack sets, hold a name in several of them,
and hold names that are no tasks.  Whether it fits a graph is found out from the union of its sets
and from their sizes.  If the members of the sets are listed one set after the other, the sizes add
up to the length of the list, and the union has as many members only if no name is listed twice.  So
a snapshot from which a plan is made places every task, and what is known of such maps tells how
each task starts out.
-/

namespace JobGraph

/-! ## Lists of all names with a property -/

/-- The names with a property, each once and in order. -/
structure Names.Lists (names : List String) (property : String → Prop) : Prop where
  ordered : Names.Ordered names
  members : ∀ name, name ∈ names ↔ property name

theorem Names.Lists.unique {first second : List String} {property : String → Prop}
    (here : Lists first property) (there : Lists second property) : first = second := by
  have same : (⟨first, here.ordered⟩ : NameSet) = ⟨second, there.ordered⟩ := by
    apply NameSet.ext_mem
    intro name
    exact (here.members name).trans (there.members name).symm
  exact congrArg NameSet.toList same

/-- A set is as large as the list it is made from just if nothing stands there twice. -/
theorem NameSet.size_ofList_eq_iff {names : List String} :
    names.length = (ofList names).size ↔ names.Nodup := by
  have once : (ofList names).size = names.dedup.length := by
    apply size_eq_length names.nodup_dedup
    intro name
    rw [mem_ofList, List.mem_dedup]
  rw [once, ← List.dedup_eq_self]
  constructor
  · intro same
    exact names.dedup_sublist.eq_of_length same.symm
  · intro same
    rw [same]

/-! ## Maps that hold a name twice -/

namespace StateMap

variable {map : StateMap} {states : List TaskState} {name : String}

/-- The members of the sets of some states, one set after the other. -/
def listing (map : StateMap) (states : List TaskState) : List String :=
  states.flatMap fun state => (map.names state).toList

theorem listing_cons (map : StateMap) (state : TaskState) (rest : List TaskState) :
    map.listing (state :: rest) = (map.names state).toList ++ map.listing rest :=
  List.flatMap_cons

theorem mem_listing : name ∈ map.listing states ↔ ∃ state ∈ states, name ∈ map.names state :=
  List.mem_flatMap

private theorem foldl_size_eq (map : StateMap) (states : List TaskState) (count : Nat) :
    states.foldl (fun count state => count + (map.names state).size) count =
      count + (map.listing states).length := by
  induction states generalizing count with
  | nil => rfl
  | cons state rest inductionHypothesis =>
      rw [List.foldl_cons, inductionHypothesis, listing_cons, List.length_append, Nat.add_assoc,
        NameSet.size]

theorem countIn_eq_length (map : StateMap) (states : List TaskState) :
    map.countIn states = (map.listing states).length := by
  rw [countIn, foldl_size_eq, Nat.zero_add]

private theorem mem_foldl_union {found : NameSet} :
    name ∈ states.foldl (fun found state => found.union (map.names state)) found ↔
      name ∈ found ∨ name ∈ map.listing states := by
  induction states generalizing found with
  | nil => simp [listing]
  | cons state rest inductionHypothesis =>
      rw [List.foldl_cons, inductionHypothesis, NameSet.mem_union, or_assoc, listing_cons,
        List.mem_append, NameSet.mem_toList]

theorem namesIn_eq_ofList (map : StateMap) (states : List TaskState) :
    map.namesIn states = .ofList (map.listing states) := by
  apply NameSet.ext_mem
  intro name
  rw [namesIn, mem_foldl_union, NameSet.mem_ofList, or_iff_right (NameSet.not_mem_empty name)]

theorem mem_allNames : name ∈ map.allNames ↔ ∃ state, name ∈ map.names state := by
  rw [allNames, namesIn_eq_ofList, NameSet.mem_ofList, mem_listing]
  simp only [TaskState.mem_all, true_and]

theorem nodup_listing_iff : (map.listing TaskState.all).Nodup ↔
    ∀ name first second, name ∈ map.names first → name ∈ map.names second → first = second := by
  rw [listing, List.nodup_flatMap]
  constructor
  · rintro ⟨_, apart⟩ name first second firstly again
    by_contra different
    have : Std.Symm (Function.onFun List.Disjoint fun state => (map.names state).toList) :=
      ⟨fun _ _ => List.Disjoint.symm⟩
    have disjoint := apart.forall (TaskState.mem_all first) (TaskState.mem_all second) different
    exact disjoint firstly again
  · intro once
    refine ⟨fun state _ => (map.names state).nodup, ?_⟩
    have fresh : TaskState.all.Nodup := by decide
    apply fresh.imp
    intro first second different name firstly again
    exact different (once name first second firstly again)

/-- The sizes of the sets add up to the number of names just if no name is in two of them. -/
theorem total_eq_size_iff : map.total = map.allNames.size ↔
    ∀ name first second, name ∈ map.names first → name ∈ map.names second → first = second := by
  rw [total, allNames, countIn_eq_length, namesIn_eq_ofList, NameSet.size_ofList_eq_iff,
    nodup_listing_iff]

end StateMap

/-! ## Which snapshots fit -/

namespace Snapshot

variable {snapshot : Snapshot} {graph : Graph} {error : Error} {plan : RestorePlan}

/-- The snapshot holds every task of the graph in exactly one state, and no other name. -/
structure Fits (snapshot : Snapshot) (graph : Graph) : Prop where
  once : ∀ name ∈ graph.names, ∃! state, name ∈ snapshot.states.names state
  known : ∀ state, ∀ name ∈ snapshot.states.names state, name ∈ graph.names

/-- The names that the snapshot holds are the tasks of the graph. -/
def NamesTasks (snapshot : Snapshot) (graph : Graph) : Prop :=
  ∀ name, name ∈ graph.names ↔ ∃ state, name ∈ snapshot.states.names state

/-- Why no plan is made from a snapshot.  That a name is held twice counts only if the snapshot
holds the tasks of the graph and no other names. -/
inductive Refuses (snapshot : Snapshot) (graph : Graph) : Error → Prop
  | differ {missing unknown : List String} (unlike : ¬snapshot.NamesTasks graph)
      (unsaved : Names.Lists missing fun name =>
        name ∈ graph.names ∧ ∀ state, name ∉ snapshot.states.names state)
      (foreign : Names.Lists unknown fun name =>
        name ∉ graph.names ∧ ∃ state, name ∈ snapshot.states.names state) :
      Refuses snapshot graph (.checkpointMismatch missing unknown)
  | repeated {name : String} {first second : TaskState} (same : snapshot.NamesTasks graph)
      (apart : first ≠ second) (firstly : name ∈ snapshot.states.names first)
      (again : name ∈ snapshot.states.names second) :
      Refuses snapshot graph (.checkpointCorrupt .repeatedTask)

theorem namesTasks_iff :
    snapshot.NamesTasks graph ↔ snapshot.states.allNames = NameSet.ofList graph.names := by
  constructor
  · intro same
    apply NameSet.ext_mem
    intro name
    rw [StateMap.mem_allNames, NameSet.mem_ofList, same name]
  · intro same name
    rw [← NameSet.mem_ofList, ← same, StateMap.mem_allNames]

theorem fits_iff : snapshot.Fits graph ↔
    snapshot.states.allNames = NameSet.ofList graph.names ∧
      snapshot.states.total = snapshot.states.allNames.size := by
  rw [← namesTasks_iff, StateMap.total_eq_size_iff]
  constructor
  · intro fits
    constructor
    · intro name
      constructor
      · intro listed
        exact (fits.once name listed).exists
      · rintro ⟨state, held⟩
        exact fits.known state name held
    · intro name first second firstly again
      exact (fits.once name (fits.known first name firstly)).unique firstly again
  · rintro ⟨same, once⟩
    constructor
    · intro name listed
      obtain ⟨state, held⟩ := (same name).1 listed
      exact ⟨state, held, fun other again => once name other state again held⟩
    · intro state name held
      exact (same name).2 ⟨state, held⟩

theorem Fits.exists_places (fits : snapshot.Fits graph) :
    ∃ place, snapshot.states.Places graph.names place := by
  have held : ∀ name, ∃ state, name ∈ graph.names → name ∈ snapshot.states.names state := by
    intro name
    by_cases listed : name ∈ graph.names
    · obtain ⟨state, held⟩ := (fits.once name listed).exists
      exact ⟨state, fun _ => held⟩
    · exact ⟨.init, fun known => absurd known listed⟩
  choose place held using held
  refine ⟨place, ?_⟩
  intro state name
  constructor
  · intro here
    have listed := fits.known state name here
    exact ⟨listed, (fits.once name listed).unique (held name listed) here⟩
  · rintro ⟨listed, rfl⟩
    exact held name listed

theorem Refuses.not_fits (refuses : snapshot.Refuses graph error) : ¬snapshot.Fits graph := by
  intro fits
  cases refuses with
  | differ unlike => exact unlike (namesTasks_iff.2 (fits_iff.1 fits).1)
  | repeated same apart firstly again =>
      exact apart ((fits.once _ (fits.known _ _ firstly)).unique firstly again)

theorem Refuses.unique {other : Error} (first : snapshot.Refuses graph error)
    (second : snapshot.Refuses graph other) : error = other := by
  cases first with
  | differ unlike unsaved foreign =>
      cases second with
      | differ _ otherUnsaved otherForeign =>
          rw [unsaved.unique otherUnsaved, foreign.unique otherForeign]
      | repeated same => exact absurd same unlike
  | repeated same =>
      cases second with
      | differ unlike => exact absurd same unlike
      | repeated => rfl

theorem isEmpty_diff_iff {saved current : NameSet} :
    ((current.diff saved).toList.isEmpty && (saved.diff current).toList.isEmpty) = true ↔
      saved = current := by
  rw [Bool.and_eq_true, List.isEmpty_iff, List.isEmpty_iff, List.eq_nil_iff_forall_not_mem,
    List.eq_nil_iff_forall_not_mem]
  simp only [NameSet.mem_toList, NameSet.mem_diff, not_and, not_not]
  constructor
  · rintro ⟨missing, unknown⟩
    apply NameSet.ext_mem
    intro name
    exact ⟨unknown name, missing name⟩
  · rintro rfl
    exact ⟨fun _ known => known, fun _ known => known⟩

theorem refuses_of_plan (failed : snapshot.plan graph = .error error) :
    snapshot.Refuses graph error := by
  rw [plan] at failed
  split at failed
  next => cases failed
  next unfit =>
    dsimp only at failed
    split at failed
    next alike =>
      cases failed
      have same := isEmpty_diff_iff.1 alike
      have twice : ¬snapshot.states.total = snapshot.states.allNames.size :=
        fun once => unfit ⟨same, once⟩
      rw [StateMap.total_eq_size_iff] at twice
      push Not at twice
      obtain ⟨name, first, second, firstly, again, apart⟩ := twice
      exact .repeated (namesTasks_iff.2 same) apart firstly again
    next unlike =>
      cases failed
      refine .differ (fun same => unlike (isEmpty_diff_iff.2 (namesTasks_iff.1 same))) ?_ ?_
      · refine ⟨NameSet.ordered _, ?_⟩
        intro name
        rw [NameSet.mem_toList, NameSet.mem_diff, NameSet.mem_ofList, StateMap.mem_allNames,
          not_exists]
      · refine ⟨NameSet.ordered _, ?_⟩
        intro name
        rw [NameSet.mem_toList, NameSet.mem_diff, NameSet.mem_ofList, StateMap.mem_allNames,
          and_comm]

theorem exists_plan_iff : (∃ plan, snapshot.plan graph = .ok plan) ↔ snapshot.Fits graph := by
  rw [fits_iff]
  constructor
  · rintro ⟨found, planned⟩
    rw [plan] at planned
    split at planned
    next fit => exact fit
    next =>
      dsimp only at planned
      split at planned <;> cases planned
  · intro fit
    exact ⟨_, if_pos fit⟩

theorem plan_eq_error_iff :
    snapshot.plan graph = .error error ↔ snapshot.Refuses graph error := by
  refine ⟨refuses_of_plan, ?_⟩
  intro refuses
  cases found : snapshot.plan graph with
  | error other => rw [refuses.unique (refuses_of_plan found)]
  | ok planned => exact absurd (exists_plan_iff.1 ⟨planned, found⟩) refuses.not_fits

/-! ## What is planned -/

theorem plan_eq (planned : snapshot.plan graph = .ok plan) :
    plan = ⟨KeyMap.ofList (graph.names.map fun name =>
      (name, Seed.ofSaved (snapshot.states.stateOf? name))), snapshot.store⟩ := by
  have fits := fits_iff.1 (exists_plan_iff.1 ⟨plan, planned⟩)
  rw [Snapshot.plan, if_pos fits] at planned
  exact (Except.ok.inj planned).symm

theorem entries_of_plan (ordered : Names.Ordered graph.names)
    (planned : snapshot.plan graph = .ok plan) :
    plan.seeds.entries = graph.names.map fun name =>
      (name, Seed.ofSaved (snapshot.states.stateOf? name)) := by
  rw [plan_eq planned]
  apply KeyMap.entries_ofList
  exact List.pairwise_map.2 ordered

theorem seed_of_plan (planned : snapshot.plan graph = .ok plan) {name : String}
    (listed : name ∈ graph.names) {state : TaskState} (held : name ∈ snapshot.states.names state) :
    plan.seeds.find? name =
      some (if state = .completed ∨ state = .skip then .restored state else .fresh true) := by
  obtain ⟨place, places⟩ := (exists_plan_iff.1 ⟨plan, planned⟩).exists_places
  have saved : snapshot.states.stateOf? name = some state :=
    (places.stateOf?_eq_some_iff listed).2 ((places state name).1 held).2
  rw [plan_eq planned, KeyMap.find?_ofList_map, if_pos listed, saved]
  cases state <;> rfl

theorem rerun_of_plan (ordered : Names.Ordered graph.names)
    (planned : snapshot.plan graph = .ok plan) :
    plan.rerun = graph.names.filter fun name =>
      decide (name ∉ snapshot.states.names .completed ∧ name ∉ snapshot.states.names .skip) := by
  obtain ⟨place, places⟩ := (exists_plan_iff.1 ⟨plan, planned⟩).exists_places
  rw [RestorePlan.rerun, entries_of_plan ordered planned, List.filterMap_map,
    ← List.filterMap_eq_filter]
  apply List.filterMap_congr
  intro name listed
  simp only [Function.comp_apply, places.stateOf? listed, places _ name, listed, true_and,
    Option.guard]
  cases place name <;> rfl

theorem final_seed_of_plan (planned : snapshot.plan graph = .ok plan) {name : String}
    (listed : name ∈ graph.names) {state : TaskState} (held : name ∈ snapshot.states.names state)
    (left : NameSet) :
    (plan.seeds.overlaySkipped left).find? name =
      some (if state = .completed ∨ state = .skip then .restored state
        else if name ∈ left then .skip else .fresh true) := by
  rw [KeyMap.find?_overlaySkipped, seed_of_plan planned listed held]
  by_cases cleared : state = .completed ∨ state = .skip
  · simp only [cleared, if_true, Seed.leftOut, ite_self]
  · simp only [cleared, if_false, Seed.leftOut]
    split <;> rfl

/-- From a snapshot, however it came about, a plan is made just if it holds every task in exactly
one state and no other name, and otherwise it is told why: the names that are missing and those that
are unknown, or, if there are none, that a task is held twice.  The plan has one seed for each task.
Tasks that were completed or skipped are taken over, all others run again, and of those the ones
that a selection leaves out are skipped. -/
theorem plans_are_exact {tasks : List Task} (accepted : Graph.ofTasks tasks = .ok graph)
    (snapshot : Snapshot) :
    ((∃ plan, snapshot.plan graph = .ok plan) ↔ snapshot.Fits graph) ∧
    (∀ error, snapshot.plan graph = .error error ↔ snapshot.Refuses graph error) ∧
    ∀ plan, snapshot.plan graph = .ok plan →
      plan.store = snapshot.store ∧ plan.seeds.keys = graph.names ∧
      (plan.rerun = graph.names.filter fun name =>
        decide (name ∉ snapshot.states.names .completed ∧ name ∉ snapshot.states.names .skip)) ∧
      ∀ name ∈ graph.names, ∀ state, name ∈ snapshot.states.names state →
        plan.seeds.find? name =
          some (if state = .completed ∨ state = .skip then .restored state else .fresh true) ∧
        ∀ left, (plan.seeds.overlaySkipped left).find? name =
          some (if state = .completed ∨ state = .skip then .restored state
            else if name ∈ left then .skip else .fresh true) := by
  have ordered : Names.Ordered graph.names :=
    List.pairwise_map.2 (Graph.inNameOrder_of_ofTasks accepted).ordered
  refine ⟨exists_plan_iff, fun error => plan_eq_error_iff, ?_⟩
  intro plan planned
  refine ⟨?_, ?_, rerun_of_plan ordered planned, ?_⟩
  · rw [plan_eq planned]
  · rw [KeyMap.keys, entries_of_plan ordered planned, List.map_map]
    exact List.map_id graph.names
  · intro name listed state held
    exact ⟨seed_of_plan planned listed held, final_seed_of_plan planned listed held⟩

/-- What a map without most of its sets says of two tasks. -/
def halfDone : Snapshot :=
  ⟨{ StateMap.bare with
      completed := some (.ofList ["left"]), failed := some (.ofList ["right"]) }, .empty⟩

/-- The same map, with the completed task among those that failed as well. -/
def contradictory : Snapshot :=
  ⟨{ StateMap.bare with
      completed := some (.ofList ["left"]), failed := some (.ofList ["left", "right"]) }, .empty⟩

theorem half_done_rivals_are_planned :
    (∃ plan, halfDone.plan Graph.rivals = .ok plan ∧ plan.rerun = ["right"] ∧
      (plan.seeds.overlaySkipped (.ofList ["left", "right"])).find? "left" =
        some (.restored .completed) ∧
      (plan.seeds.overlaySkipped (.ofList ["left", "right"])).find? "right" = some .skip) ∧
    halfDone.Refuses Graph.pair (.checkpointMismatch ["first", "second"] ["left", "right"]) ∧
    contradictory.plan Graph.rivals = .error (.checkpointCorrupt .repeatedTask) := by
  obtain ⟨_, _, planned⟩ := plans_are_exact Graph.rivals_accepted halfDone
  obtain ⟨_, mismatched, _⟩ := plans_are_exact Graph.pair_accepted halfDone
  obtain ⟨_, refused, _⟩ := plans_are_exact Graph.rivals_accepted contradictory
  refine ⟨?_, (mismatched _).1 rfl, ?_⟩
  · obtain ⟨plan, found⟩ : ∃ plan, halfDone.plan Graph.rivals = .ok plan := ⟨_, rfl⟩
    obtain ⟨_, _, rerun, seeds⟩ := planned plan found
    have left := (seeds "left" (by decide) .completed (by decide)).2 (.ofList ["left", "right"])
    have right := (seeds "right" (by decide) .failed (by decide)).2 (.ofList ["left", "right"])
    exact ⟨plan, found, rerun.trans (by decide), left, right.trans (by decide)⟩
  · have same : contradictory.NamesTasks Graph.rivals := namesTasks_iff.2 (by decide)
    have firstly : "left" ∈ contradictory.states.names .completed := by decide
    have again : "left" ∈ contradictory.states.names .failed := by decide
    exact (refused _).2 (.repeated same (by decide) firstly again)

end Snapshot

end JobGraph
