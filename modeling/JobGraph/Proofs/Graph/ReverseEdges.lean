import JobGraph.Proofs.Graph.Acceptance
import JobGraph.Proofs.Containers

/-!
# Reverse edges

The dependents of a task can be read from a map that is made once, by going through the tasks in
order of their names and entering each under all its dependencies.  A task that lists a dependency
twice is entered twice, so dependents and dependencies agree as lists with repetitions.
-/

namespace JobGraph.Graph

variable {tasks : List Task} {graph : Graph} {name other dependency : String}

/-! ## The map of dependents -/

/-- Enters a task under one of its dependencies. -/
def addDependent (name : String) (dependents : KeyMap (List String)) (dependency : String) :
    KeyMap (List String) :=
  dependents.insert dependency ((dependents.find? dependency).getD [] ++ [name])

/-- The map from each dependency to the tasks that list it. -/
def dependentsMap (tasks : List Task) : KeyMap (List String) :=
  tasks.foldl (fun dependents task => task.dependsOn.foldl (addDependent task.name) dependents)
    .empty

theorem find?_foldl_addDependent (dependencies : List String)
    (dependents : KeyMap (List String)) :
    ((dependencies.foldl (addDependent name) dependents).find? dependency).getD [] =
      (dependents.find? dependency).getD [] ++
        (dependencies.filter (· = dependency)).map fun _ => name := by
  induction dependencies generalizing dependents with
  | nil => simp
  | cons head rest inductionHypothesis =>
      rw [List.foldl_cons, inductionHypothesis, addDependent, KeyMap.find?_insert]
      by_cases same : dependency = head
      · subst same
        simp
      · rw [if_neg same, List.filter_cons_of_neg (by simpa using Ne.symm same)]

theorem find?_foldl_dependents (tasks : List Task) (dependents : KeyMap (List String)) :
    ((tasks.foldl (fun dependents task => task.dependsOn.foldl (addDependent task.name) dependents)
        dependents).find? dependency).getD [] =
      (dependents.find? dependency).getD [] ++ dependentsIn tasks dependency := by
  induction tasks generalizing dependents with
  | nil => simp [dependentsIn]
  | cons task rest inductionHypothesis =>
      rw [List.foldl_cons, inductionHypothesis, find?_foldl_addDependent, List.append_assoc]
      rfl

theorem find?_dependentsMap (tasks : List Task) (dependency : String) :
    ((dependentsMap tasks).find? dependency).getD [] = dependentsIn tasks dependency := by
  rw [dependentsMap, find?_foldl_dependents]
  rfl

/-! ## Dependents and dependencies -/

theorem dependentsIn_eq (tasks : List Task) (dependency : String) :
    dependentsIn tasks dependency =
      tasks.flatMap fun task => List.replicate (task.dependsOn.count dependency) task.name := by
  apply congrArg tasks.flatMap
  funext task
  rw [List.map_const', List.count_eq_length_filter]
  congr 2

/-- A task is a dependent as often as it lists the dependency. -/
theorem count_dependentsIn (distinct : (tasks.map Task.name).Nodup) :
    (dependentsIn tasks dependency).count name =
      (((findTask? tasks name).map Task.dependsOn).getD []).count dependency := by
  induction tasks with
  | nil => rfl
  | cons task rest inductionHypothesis =>
      obtain ⟨new, restDistinct⟩ := List.nodup_cons.1 distinct
      rw [dependentsIn_eq, List.flatMap_cons, ← dependentsIn_eq, List.count_append,
        List.count_replicate]
      by_cases same : task.name = name
      · subst same
        have absent : task.name ∉ dependentsIn rest dependency :=
          fun member => new (mem_dependentsIn.1 member).name_mem
        rw [List.count_eq_zero_of_not_mem absent, findTask?_of_mem distinct List.mem_cons_self]
        simp
      · have found : findTask? (task :: rest) name = findTask? rest name :=
          List.find?_cons_of_neg (by simpa using same)
        rw [inductionHypothesis restDistinct, found, if_neg (by simpa using same), Nat.zero_add]

theorem dependentsIn_ordered (order : tasks.Pairwise fun first second => first.name < second.name) :
    (dependentsIn tasks dependency).Pairwise (· ≤ ·) := by
  rw [dependentsIn_eq, List.pairwise_flatMap]
  constructor
  · intro task _
    exact List.pairwise_replicate.2 (Or.inr (String.le_refl _))
  · refine order.imp ?_
    intro first second below name firstMember other secondMember
    rw [List.eq_of_mem_replicate firstMember, List.eq_of_mem_replicate secondMember]
    exact String.not_lt.1 (String.lt_asymm below)

theorem inNameOrder_of_ofTasks (accepted : ofTasks tasks = .ok graph) :
    InNameOrder graph.tasks tasks := by
  have verdict := verdict_ofTasks tasks
  rw [accepted] at verdict
  cases verdict with
  | accepted _ _ _ order => exact order

theorem mem_dependentsOf : other ∈ graph.dependentsOf name ↔ Depends graph.tasks other name :=
  mem_dependentsIn

theorem Sound.mem_dependenciesOf (sound : graph.Sound) :
    other ∈ graph.dependenciesOf name ↔ Depends graph.tasks name other := by
  rw [← mem_dependentsOf, ← List.count_pos_iff, ← List.count_pos_iff, dependentsOf,
    count_dependentsIn sound.distinct]
  rfl

end JobGraph.Graph
