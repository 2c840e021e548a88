import JobGraph.Proofs.Graph.Cycles

/-!
# Which lists of tasks are accepted

A list of tasks is accepted exactly if the names differ, every dependency is the name of another
task, and no task depends on itself through others; the graph then has the same tasks, sorted by
name.  The checks are made in this order and each names the first thing that it finds, so the error
of a refused list is determined too, save for which task of which cycle it names; that task always
lies on one.
-/

namespace JobGraph.Graph

open Relation (TransGen)

/-! ## What the checks look for -/

/-- The name is the first one of a list that stands earlier in it too. -/
def FirstRepeat (names : List String) (name : String) : Prop :=
  ∃ before after, names = before ++ name :: after ∧ name ∈ before ∧ before.Nodup

/-- The dependency is the name of a task other than the given one. -/
def NamesAnother (tasks : List Task) (task : Task) (dependency : String) : Prop :=
  dependency ≠ task.name ∧ dependency ∈ tasks.map Task.name

/-- Every dependency is the name of another task. -/
def Linked (tasks : List Task) : Prop :=
  ∀ task ∈ tasks, ∀ dependency ∈ task.dependsOn, NamesAnother tasks task dependency

/-- The dependency is the first one, by the order of the tasks and then of their dependencies, that
is not the name of another task. -/
def FirstStray (tasks : List Task) (task : Task) (dependency : String) : Prop :=
  ∃ before after heard rest, tasks = before ++ task :: after ∧
    task.dependsOn = heard ++ dependency :: rest ∧
    (∀ other ∈ before, ∀ entry ∈ other.dependsOn, NamesAnother tasks other entry) ∧
    (∀ entry ∈ heard, NamesAnother tasks task entry) ∧ ¬NamesAnother tasks task dependency

/-- The same tasks, sorted by name. -/
structure InNameOrder (sorted tasks : List Task) : Prop where
  perm : sorted.Perm tasks
  ordered : sorted.Pairwise fun first second => first.name < second.name

variable {tasks sorted : List Task} {task : Task} {names earlier : List String}
  {name dependency : String} {problem : Error} {graph : Graph}

/-! ## Repeated names -/

theorem firstRepeated?_append {before : List String} (once : before.Nodup)
    (apart : ∀ name ∈ before, name ∉ earlier) (after : List String) :
    firstRepeated? earlier (before ++ after) =
      firstRepeated? (before.reverse ++ earlier) after := by
  induction before generalizing earlier with
  | nil => rfl
  | cons head rest inductionHypothesis =>
      obtain ⟨new, restOnce⟩ := List.nodup_cons.1 once
      have restApart : ∀ name ∈ rest, name ∉ head :: earlier := by
        intro name member again
        rcases List.mem_cons.1 again with same | before
        · exact new (same ▸ member)
        · exact apart name (List.mem_cons_of_mem _ member) before
      rw [List.cons_append, firstRepeated?, if_neg (apart head List.mem_cons_self),
        inductionHypothesis restOnce restApart, List.reverse_cons, List.append_assoc,
        List.singleton_append]

theorem firstRepeated?_eq_none_iff :
    firstRepeated? earlier names = none ↔ names.Nodup ∧ ∀ name ∈ names, name ∉ earlier := by
  refine ⟨nodup_of_firstRepeated?, ?_⟩
  intro ⟨once, apart⟩
  have skipped := firstRepeated?_append once apart []
  rwa [List.append_nil] at skipped

theorem exists_of_firstRepeated? (found : firstRepeated? earlier names = some name) :
    ∃ before after, names = before ++ name :: after ∧
      (name ∈ before ∨ name ∈ earlier) ∧ before.Nodup ∧ ∀ other ∈ before, other ∉ earlier := by
  induction names generalizing earlier with
  | nil => cases found
  | cons head rest inductionHypothesis =>
      rw [firstRepeated?] at found
      split at found
      next again =>
        cases found
        exact ⟨[], rest, rfl, Or.inr again, List.nodup_nil, by simp⟩
      next new =>
        obtain ⟨before, after, rfl, here, once, apart⟩ := inductionHypothesis found
        refine ⟨head :: before, after, rfl, ?_, ?_, ?_⟩
        · simpa [or_assoc, or_comm, or_left_comm] using here
        · exact List.nodup_cons.2 ⟨fun member => apart head member List.mem_cons_self, once⟩
        · intro other member
          rcases List.mem_cons.1 member with same | later
          · exact same ▸ new
          · exact fun before => apart other later (List.mem_cons_of_mem _ before)

theorem firstRepeat_iff : firstRepeated? [] names = some name ↔ FirstRepeat names name := by
  constructor
  · intro found
    obtain ⟨before, after, split, here, once, _⟩ := exists_of_firstRepeated? found
    exact ⟨before, after, split, here.resolve_right List.not_mem_nil, once⟩
  · intro ⟨before, after, split, here, once⟩
    rw [split, firstRepeated?_append once (fun _ _ => List.not_mem_nil), firstRepeated?, if_pos]
    simpa using here

/-! ## Stray dependencies -/

theorem dependencyProblem?_eq_none_iff :
    dependencyProblem? (tasks.map Task.name) task.name dependency = none ↔
      NamesAnother tasks task dependency := by
  unfold dependencyProblem? NamesAnother
  split
  next same => simp [same]
  next apart =>
    split
    next known => simp [apart, known]
    next unknown => simp [unknown]

/-- What is said of a dependency that is not the name of another task. -/
theorem dependencyProblem?_cases
    (found : dependencyProblem? names task.name dependency = some problem) :
    (dependency = task.name ∧ problem = .selfDependency task.name) ∨
      (dependency ≠ task.name ∧ problem = .unknownDependency task.name dependency) := by
  unfold dependencyProblem? at found
  split at found
  next same =>
    cases found
    exact Or.inl ⟨same, rfl⟩
  next apart =>
    split at found
    next => cases found
    next =>
      cases found
      exact Or.inr ⟨apart, rfl⟩

theorem firstDependencyProblem?_eq_none_iff :
    firstDependencyProblem? tasks = none ↔ Linked tasks := by
  simp only [firstDependencyProblem?, List.findSome?_eq_none_iff, dependencyProblem?_eq_none_iff,
    Linked]

theorem firstDependencyProblem?_eq_some_iff :
    firstDependencyProblem? tasks = some problem ↔ ∃ task dependency,
      FirstStray tasks task dependency ∧
        dependencyProblem? (tasks.map Task.name) task.name dependency = some problem := by
  unfold firstDependencyProblem?
  dsimp only
  rw [List.findSome?_eq_some_iff]
  simp only [List.findSome?_eq_none_iff, List.findSome?_eq_some_iff,
    dependencyProblem?_eq_none_iff]
  constructor
  · rintro ⟨before, task, after, split, ⟨heard, dependency, rest, entries, found, fine⟩, others⟩
    refine ⟨task, dependency, ⟨before, after, heard, rest, split, entries, others, fine, ?_⟩, found⟩
    intro another
    cases (dependencyProblem?_eq_none_iff.2 another).symm.trans found
  · rintro ⟨task, dependency, ⟨before, after, heard, rest, split, entries, others, fine, _⟩, found⟩
    exact ⟨before, task, after, split, ⟨heard, dependency, rest, entries, found, fine⟩, others⟩

/-! ## The order of names -/

theorem insertByName_ordered (ordered : tasks.Pairwise fun first second => first.name < second.name)
    (new : task.name ∉ tasks.map Task.name) :
    (insertByName task tasks).Pairwise fun first second => first.name < second.name := by
  induction tasks with
  | nil => exact List.pairwise_singleton _ _
  | cons current rest inductionHypothesis =>
      obtain ⟨below, restOrdered⟩ := List.pairwise_cons.1 ordered
      rw [List.map_cons, List.mem_cons, not_or] at new
      rw [insertByName]
      split
      next later =>
        refine List.pairwise_cons.2 ⟨?_, inductionHypothesis restOrdered new.2⟩
        intro other member
        rcases List.mem_cons.1 ((insertByName_perm task rest).mem_iff.1 member) with same | listed
        · exact same ▸ later
        · exact below other listed
      next notLater =>
        have first : task.name < current.name :=
          Std.lt_of_le_of_ne (String.not_lt.1 notLater) new.1
        refine List.pairwise_cons.2 ⟨?_, ordered⟩
        intro other member
        rcases List.mem_cons.1 member with same | listed
        · exact same ▸ first
        · exact String.lt_trans first (below other listed)

theorem inNameOrder_sortByName (distinct : (tasks.map Task.name).Nodup) :
    InNameOrder (sortByName tasks) tasks := by
  refine ⟨sortByName_perm tasks, ?_⟩
  induction tasks with
  | nil => exact List.Pairwise.nil
  | cons task rest inductionHypothesis =>
      obtain ⟨new, restDistinct⟩ := List.nodup_cons.1 distinct
      apply insertByName_ordered (inductionHypothesis restDistinct)
      rwa [((sortByName_perm rest).map Task.name).mem_iff]

/-- There is only one way to sort tasks by name. -/
theorem InNameOrder.unique {others : List Task} (first : InNameOrder sorted tasks)
    (second : InNameOrder others tasks) : sorted = others := by
  refine (first.perm.trans second.perm.symm).eq_of_pairwise ?_ first.ordered second.ordered
  intro left right _ _ below above
  exact absurd (String.lt_trans below above) (String.lt_irrefl _)

theorem linked_iff_of_perm (same : sorted.Perm tasks) : Linked sorted ↔ Linked tasks := by
  simp only [Linked, NamesAnother, same.mem_iff, (same.map Task.name).mem_iff]

theorem acyclic_iff_of_perm (same : sorted.Perm tasks) : Acyclic sorted ↔ Acyclic tasks := by
  simp only [Acyclic, depends_iff_of_perm same]

/-! ## What comes of a list -/

theorem ofTasks_of_distinct (distinct : (tasks.map Task.name).Nodup) :
    ofTasks tasks =
      match firstDependencyProblem? (sortByName tasks) with
      | some problem => .error problem
      | none =>
        match cycleOf? (sortByName tasks) with
        | some name => .error (.cycle name)
        | none => .ok ⟨sortByName tasks⟩ := by
  rw [ofTasks, firstRepeated?_eq_none_iff.2 ⟨distinct, fun _ _ => List.not_mem_nil⟩]
  rfl

theorem ofTasks_of_linked (distinct : (tasks.map Task.name).Nodup) (linked : Linked tasks) :
    ofTasks tasks =
      match cycleOf? (sortByName tasks) with
      | some name => .error (.cycle name)
      | none => .ok ⟨sortByName tasks⟩ := by
  have sortedLinked := (linked_iff_of_perm (sortByName_perm tasks)).2 linked
  rw [ofTasks_of_distinct distinct, firstDependencyProblem?_eq_none_iff.2 sortedLinked]

theorem ofTasks_of_stray (distinct : (tasks.map Task.name).Nodup)
    (order : InNameOrder sorted tasks) (first : FirstStray sorted task dependency) :
    ofTasks tasks = .error (if dependency = task.name then .selfDependency task.name
      else .unknownDependency task.name dependency) := by
  cases order.unique (inNameOrder_sortByName distinct)
  obtain ⟨problem, found⟩ : ∃ problem,
      dependencyProblem? ((sortByName tasks).map Task.name) task.name dependency =
        some problem := by
    obtain ⟨_, _, _, _, _, _, _, _, stray⟩ := first
    rw [← Option.isSome_iff_exists, Option.isSome_iff_ne_none]
    exact fun none => stray (dependencyProblem?_eq_none_iff.1 none)
  have reported := firstDependencyProblem?_eq_some_iff.2 ⟨task, dependency, first, found⟩
  rw [ofTasks_of_distinct distinct, reported]
  rcases dependencyProblem?_cases found with ⟨same, rfl⟩ | ⟨apart, rfl⟩
  · rw [if_pos same]
  · rw [if_neg apart]

/-- A task that is found out of order among the sorted tasks lies on a cycle. -/
theorem cycle_of_sorted (distinct : (tasks.map Task.name).Nodup) (linked : Linked tasks)
    (found : cycleOf? (sortByName tasks) = some name) : TransGen (Depends tasks) name name := by
  have same := sortByName_perm tasks
  rw [← depends_iff_of_perm same]
  apply cycle_of_cycleOf? (((same.map Task.name).nodup_iff).2 distinct) _ found
  rintro name dependency ⟨task, listed, rfl, depends⟩
  exact ((linked_iff_of_perm same).2 linked task listed dependency depends).2

/-- Nothing is found out of order exactly if there is no cycle. -/
theorem cycleOf?_eq_none_iff (distinct : (tasks.map Task.name).Nodup) (linked : Linked tasks) :
    cycleOf? (sortByName tasks) = none ↔ Acyclic tasks := by
  constructor
  · intro none
    have result : ofTasks tasks = .ok ⟨sortByName tasks⟩ := by
      rw [ofTasks_of_linked distinct linked, none]
    exact (acyclic_iff_of_perm (sortByName_perm tasks)).1 (sound_of_ofTasks result).acyclic
  · intro acyclic
    rw [← Option.not_isSome_iff_eq_none, Option.isSome_iff_exists]
    rintro ⟨name, found⟩
    exact acyclic name (cycle_of_sorted distinct linked found)

/-- What may come of a list of tasks, one case for each way in which the checks may end. -/
inductive Verdict (tasks : List Task) : Except Error Graph → Prop
  | repeated {name : String} (first : FirstRepeat (tasks.map Task.name) name) :
      Verdict tasks (.error (.duplicateTask name))
  | onItself {sorted : List Task} {task : Task} (distinct : (tasks.map Task.name).Nodup)
      (order : InNameOrder sorted tasks) (first : FirstStray sorted task task.name) :
      Verdict tasks (.error (.selfDependency task.name))
  | unknown {sorted : List Task} {task : Task} {dependency : String}
      (distinct : (tasks.map Task.name).Nodup) (order : InNameOrder sorted tasks)
      (first : FirstStray sorted task dependency) (apart : dependency ≠ task.name) :
      Verdict tasks (.error (.unknownDependency task.name dependency))
  | cyclic {name : String} (distinct : (tasks.map Task.name).Nodup) (linked : Linked tasks)
      (loop : TransGen (Depends tasks) name name)
      (second : secondFound? (predecessors (sortByName tasks)) []
        (finishingOrder ((sortByName tasks).map Task.name) (successors (sortByName tasks))) =
          some name) : Verdict tasks (.error (.cycle name))
  | accepted {graph : Graph} (distinct : (tasks.map Task.name).Nodup) (linked : Linked tasks)
      (acyclic : Acyclic tasks) (order : InNameOrder graph.tasks tasks) : Verdict tasks (.ok graph)

theorem verdict_ofTasks (tasks : List Task) : Verdict tasks (ofTasks tasks) := by
  cases repeats : firstRepeated? [] (tasks.map Task.name) with
  | some name =>
      rw [ofTasks, repeats]
      exact .repeated (firstRepeat_iff.1 repeats)
  | none =>
      have distinct := (firstRepeated?_eq_none_iff.1 repeats).1
      have order := inNameOrder_sortByName distinct
      cases problems : firstDependencyProblem? (sortByName tasks) with
      | some problem =>
          obtain ⟨task, dependency, first, found⟩ :=
            firstDependencyProblem?_eq_some_iff.1 problems
          rw [ofTasks_of_distinct distinct, problems]
          rcases dependencyProblem?_cases found with ⟨rfl, rfl⟩ | ⟨apart, rfl⟩
          · exact .onItself distinct order first
          · exact .unknown distinct order first apart
      | none =>
          have linked := (linked_iff_of_perm order.perm).1
            (firstDependencyProblem?_eq_none_iff.1 problems)
          cases found : cycleOf? (sortByName tasks) with
          | some name =>
              rw [ofTasks_of_linked distinct linked, found]
              refine .cyclic distinct linked (cycle_of_sorted distinct linked found) ?_
              rwa [secondFound?_eq_cycleOf? (((order.perm.map Task.name).nodup_iff).2 distinct)]
          | none =>
              rw [ofTasks_of_linked distinct linked, found]
              exact .accepted distinct linked ((cycleOf?_eq_none_iff distinct linked).1 found) order

/-- A list of tasks is accepted exactly if its names differ, every dependency is the name of another
task and there is no cycle, and the graph has the same tasks by name.  Otherwise the first name that
is repeated is reported; else the first dependency, tasks by name, that is not the name of another
task; else a cycle. -/
theorem accepted_iff_acyclic (tasks : List Task) :
    (∀ graph, ofTasks tasks = .ok graph ↔ (tasks.map Task.name).Nodup ∧ Linked tasks ∧
      Acyclic tasks ∧ InNameOrder graph.tasks tasks) ∧
    (∀ name, ofTasks tasks = .error (.duplicateTask name) ↔
      FirstRepeat (tasks.map Task.name) name) ∧
    (∀ name, ofTasks tasks = .error (.selfDependency name) ↔ (tasks.map Task.name).Nodup ∧
      ∃ sorted task, InNameOrder sorted tasks ∧ task.name = name ∧ FirstStray sorted task name) ∧
    (∀ name dependency, ofTasks tasks = .error (.unknownDependency name dependency) ↔
      (tasks.map Task.name).Nodup ∧ ∃ sorted task, InNameOrder sorted tasks ∧ task.name = name ∧
        FirstStray sorted task dependency ∧ dependency ≠ name) ∧
    ((∃ name, ofTasks tasks = .error (.cycle name)) ↔ (tasks.map Task.name).Nodup ∧ Linked tasks ∧
      ¬Acyclic tasks) := by
  have verdict := verdict_ofTasks tasks
  refine ⟨?_, ?_, ?_, ?_, ?_⟩
  · intro graph
    constructor
    · intro result
      rw [result] at verdict
      cases verdict with
      | accepted distinct linked acyclic order => exact ⟨distinct, linked, acyclic, order⟩
    · rintro ⟨distinct, linked, acyclic, order⟩
      obtain ⟨listed⟩ := graph
      cases order.unique (inNameOrder_sortByName distinct)
      rw [ofTasks_of_linked distinct linked, (cycleOf?_eq_none_iff distinct linked).2 acyclic]
      rfl
  · intro name
    constructor
    · intro result
      rw [result] at verdict
      cases verdict with
      | repeated first => exact first
    · intro first
      rw [ofTasks, firstRepeat_iff.2 first]
  · intro name
    constructor
    · intro result
      rw [result] at verdict
      cases verdict with
      | onItself distinct order first => exact ⟨distinct, _, _, order, rfl, first⟩
    · rintro ⟨distinct, sorted, task, order, rfl, first⟩
      rw [ofTasks_of_stray distinct order first, if_pos rfl]
  · intro name dependency
    constructor
    · intro result
      rw [result] at verdict
      cases verdict with
      | unknown distinct order first apart => exact ⟨distinct, _, _, order, rfl, first, apart⟩
    · rintro ⟨distinct, sorted, task, order, rfl, first, apart⟩
      rw [ofTasks_of_stray distinct order first, if_neg apart]
  · constructor
    · rintro ⟨name, result⟩
      rw [result] at verdict
      cases verdict with
      | cyclic distinct linked loop => exact ⟨distinct, linked, fun acyclic => acyclic name loop⟩
    · rintro ⟨distinct, linked, cyclic⟩
      rw [← cycleOf?_eq_none_iff distinct linked] at cyclic
      obtain ⟨name, found⟩ := Option.ne_none_iff_exists'.1 cyclic
      exact ⟨name, by rw [ofTasks_of_linked distinct linked, found]⟩

/-- A list of tasks that is refused because of a cycle is refused with the name of a task on one:
the second that the search against the edges finds from one start. -/
theorem named_task_is_on_cycle (refused : ofTasks tasks = .error (.cycle name)) :
    TransGen (Depends tasks) name name ∧
      secondFound? (predecessors (sortByName tasks)) []
        (finishingOrder ((sortByName tasks).map Task.name) (successors (sortByName tasks))) =
          some name := by
  have verdict := verdict_ofTasks tasks
  rw [refused] at verdict
  cases verdict with
  | cyclic _ _ loop second => exact ⟨loop, second⟩

/-- A cycle of three tasks, with a task that leads to it and a task that it leads to. -/
def ringTasks : List Task :=
  [⟨"sow", "Sleep", ["plan"], 1, .zero, .null⟩, ⟨"plan", "Sleep", [], 1, .zero, .null⟩,
    ⟨"reap", "Sleep", ["sow", "grow"], 1, .zero, .null⟩,
    ⟨"grow", "Sleep", ["store"], 1, .zero, .null⟩, ⟨"store", "Sleep", ["reap"], 1, .zero, .null⟩,
    ⟨"sell", "Sleep", ["store"], 1, .zero, .null⟩]

theorem ring_is_refused_at_store :
    ofTasks ringTasks = .error (.cycle "store") ∧
      TransGen (Depends ringTasks) "store" "store" ∧
        secondFound? (predecessors (sortByName ringTasks)) []
          (finishingOrder ((sortByName ringTasks).map Task.name)
            (successors (sortByName ringTasks))) = some "store" := by
  have refused : ofTasks ringTasks = .error (.cycle "store") := by cbv
  exact ⟨refused, named_task_is_on_cycle refused⟩

end JobGraph.Graph
