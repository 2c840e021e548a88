import JobGraph.Graph.Basic
import Mathlib.Data.List.Induction
import Mathlib.Data.List.Nodup
import Mathlib.Data.List.Permutation

/-!
# The order of dependencies

An accepted graph has tasks with different names, all its dependencies are names of its tasks, and
its finishing order lists every task after the tasks that it depends on.  So what is true of a task
as soon as it is true of its dependencies is true of all tasks.

The walk that makes the finishing order keeps two things: whatever was met is done with or still on
the stack, and whatever is on the stack is done with in the end.
-/

namespace JobGraph.Graph

/-! ## The finishing order lists everything once -/

section Walk

variable {next : String → List String} {unseen finished stack : List String}

/-- What a walk from a stack leaves behind. -/
structure Walked (unseen finished stack : List String) (left : List String × List String) :
    Prop where
  /-- Nothing new is left to meet, and nothing twice. -/
  remaining : left.1 ⊆ unseen
  distinct : left.1.Nodup
  /-- What was to be met has been done with, or is still to be met. -/
  covered : ∀ name ∈ unseen, name ∈ left.1 ∨ name ∈ left.2
  kept : finished ⊆ left.2
  /-- The stack has been met and done with. -/
  met : ∀ name ∈ stack, name ∉ left.1
  done : ∀ name ∈ stack, name ∈ left.2
  once : finished.Nodup → left.2.Nodup

theorem finishFrom_walked (fresh : unseen.Nodup) :
    Walked unseen finished stack (finishFrom next unseen finished stack) := by
  fun_induction finishFrom next unseen finished stack with
  | case1 unseen finished =>
      exact ⟨List.Subset.refl _, fresh, fun _ member => Or.inl member, List.Subset.refl _, by simp,
        by simp, id⟩
  | case2 unseen finished name stack met unseen' inductionHypothesis =>
      have walked := inductionHypothesis (fresh.erase name)
      have onStack : name ∈ ((next name).filter (· ∈ unseen')).reverse ++ name :: stack := by simp
      refine ⟨fun other member => List.mem_of_mem_erase (walked.remaining member), walked.distinct,
        ?_, walked.kept, ?_, ?_, walked.once⟩
      · intro other member
        by_cases same : other = name
        · exact Or.inr (same ▸ walked.done name onStack)
        · exact walked.covered other ((List.mem_erase_of_ne same).2 member)
      · intro other member
        exact walked.met other (List.mem_append_right _ member)
      · intro other member
        exact walked.done other (List.mem_append_right _ member)
  | case3 unseen finished name stack unmet done inductionHypothesis =>
      have walked := inductionHypothesis fresh
      refine ⟨walked.remaining, walked.distinct, walked.covered, walked.kept, ?_, ?_, walked.once⟩
      · intro other member
        rcases List.mem_cons.1 member with same | below
        · exact fun left => unmet (same ▸ walked.remaining left)
        · exact walked.met other below
      · intro other member
        rcases List.mem_cons.1 member with same | below
        · exact same ▸ walked.kept done
        · exact walked.done other below
  | case4 unseen finished name stack unmet notDone inductionHypothesis =>
      have walked := inductionHypothesis fresh
      refine ⟨walked.remaining, walked.distinct, walked.covered,
        fun other member => walked.kept (List.mem_cons_of_mem _ member), ?_, ?_, ?_⟩
      · intro other member
        rcases List.mem_cons.1 member with same | below
        · exact fun left => unmet (same ▸ walked.remaining left)
        · exact walked.met other below
      · intro other member
        rcases List.mem_cons.1 member with same | below
        · exact walked.kept (same ▸ List.mem_cons_self)
        · exact walked.done other below
      · intro once
        exact walked.once (List.nodup_cons.2 ⟨notDone, once⟩)

theorem finishAll_walked (names : List String) :
    ∀ {unseen finished : List String}, unseen.Nodup →
      (∀ name ∈ names, name ∈ unseen ∨ name ∈ finished) →
        Walked unseen finished [] (finishAll next names (unseen, finished)) ∧
          ∀ name ∈ names, name ∈ (finishAll next names (unseen, finished)).2 := by
  induction names with
  | nil =>
      intro unseen finished fresh _
      exact ⟨⟨List.Subset.refl _, fresh, fun _ member => Or.inl member, List.Subset.refl _, by simp,
        by simp, id⟩, by simp⟩
  | cons name rest inductionHypothesis =>
      intro unseen finished fresh covered
      rw [finishAll]
      by_cases met : name ∈ unseen
      · rw [if_pos met]
        have first : Walked unseen finished [name] (finishFrom next unseen finished [name]) :=
          finishFrom_walked fresh
        have stillCovered : ∀ other ∈ rest,
            other ∈ (finishFrom next unseen finished [name]).1 ∨
              other ∈ (finishFrom next unseen finished [name]).2 := by
          intro other member
          rcases covered other (List.mem_cons_of_mem _ member) with unmet | done
          · exact first.covered other unmet
          · exact Or.inr (first.kept done)
        obtain ⟨walked, listed⟩ := inductionHypothesis first.distinct stillCovered
        refine ⟨⟨List.Subset.trans walked.remaining first.remaining, walked.distinct, ?_,
          List.Subset.trans first.kept walked.kept, by simp, by simp,
          fun once => walked.once (first.once once)⟩,
          ?_⟩
        · intro other member
          rcases first.covered other member with unmet | done
          · exact walked.covered other unmet
          · exact Or.inr (walked.kept done)
        · intro other member
          rcases List.mem_cons.1 member with same | later
          · exact walked.kept (first.done other (by simp [same]))
          · exact listed other later
      · rw [if_neg met]
        obtain ⟨walked, listed⟩ :=
          inductionHypothesis fresh fun other member =>
            covered other (List.mem_cons_of_mem _ member)
        refine ⟨walked, ?_⟩
        intro other member
        rcases List.mem_cons.1 member with same | later
        · have done := (covered name List.mem_cons_self).resolve_left met
          exact same ▸ walked.kept done
        · exact listed other later

theorem mem_finishingOrder {names : List String} (fresh : names.Nodup) {name : String}
    (listed : name ∈ names) : name ∈ finishingOrder names next :=
  (finishAll_walked names fresh fun _ member => Or.inl member).2 name listed

theorem finishingOrder_nodup {names : List String} (fresh : names.Nodup) :
    (finishingOrder names next).Nodup :=
  (finishAll_walked names fresh fun _ member => Or.inl member).1.once List.nodup_nil

end Walk

/-! ## Checks that find nothing -/

theorem mem_distinct {name : String} (names : List String) :
    name ∈ distinct names ↔ name ∈ names := by
  induction names with
  | nil => rfl
  | cons head rest inductionHypothesis =>
      by_cases same : name = head
      · simp [distinct, same]
      · simp [distinct, same, inductionHypothesis]

theorem nodup_of_firstRepeated? {earlier names : List String}
    (none : firstRepeated? earlier names = none) :
    names.Nodup ∧ ∀ name ∈ names, name ∉ earlier := by
  induction names generalizing earlier with
  | nil => simp
  | cons head rest inductionHypothesis =>
      rw [firstRepeated?] at none
      split at none
      next => cases none
      next new =>
        obtain ⟨distinct, apart⟩ := inductionHypothesis none
        refine ⟨List.nodup_cons.2 ⟨fun again => apart head again List.mem_cons_self, distinct⟩, ?_⟩
        intro name member
        rcases List.mem_cons.1 member with same | later
        · exact same ▸ new
        · exact fun before => apart name later (List.mem_cons_of_mem _ before)

theorem insertByName_perm (task : Task) (tasks : List Task) :
    (insertByName task tasks).Perm (task :: tasks) := by
  induction tasks with
  | nil => exact List.Perm.refl _
  | cons current rest inductionHypothesis =>
      rw [insertByName]
      split
      · exact (inductionHypothesis.cons current).trans (List.Perm.swap task current rest)
      · exact List.Perm.refl _

theorem sortByName_perm (tasks : List Task) : (sortByName tasks).Perm tasks := by
  induction tasks with
  | nil => exact List.Perm.refl _
  | cons task rest inductionHypothesis =>
      exact (insertByName_perm task (sortByName rest)).trans (inductionHypothesis.cons task)

theorem dependency_known {tasks : List Task} (none : firstDependencyProblem? tasks = none)
    {task : Task} (member : task ∈ tasks) {dependency : String}
    (depends : dependency ∈ task.dependsOn) :
    dependency ≠ task.name ∧ dependency ∈ tasks.map Task.name := by
  have fine := List.findSome?_eq_none_iff.1 (List.findSome?_eq_none_iff.1 none task member)
    dependency depends
  rw [dependencyProblem?] at fine
  split at fine
  next => cases fine
  next different =>
    split at fine
    next known => exact ⟨different, known⟩
    next => cases fine

theorem previous_mem_of_firstUnordered? {previous : String → List String}
    {earlier order : List String} (none : firstUnordered? previous earlier order = none)
    {before after : List String} {name : String}
    (split : order = before ++ name :: after) {other : String} (precedes : other ∈ previous name) :
    other = name ∨ other ∈ before ∨ other ∈ earlier := by
  induction order generalizing earlier before with
  | nil => simp at split
  | cons head rest inductionHypothesis =>
      rw [firstUnordered?] at none
      split at none
      next => cases none
      next nothingLater =>
        cases before with
        | nil =>
            obtain ⟨rfl, rfl⟩ := List.cons.inj split
            have empty := List.getLast?_eq_none_iff.1 nothingLater
            have listed := List.filter_eq_nil_iff.1 empty other precedes
            simp only [List.mem_cons, decide_eq_true_eq, not_not] at listed
            exact listed.imp id Or.inr
        | cons first rest =>
            obtain ⟨rfl, tail⟩ := List.cons.inj split
            rcases inductionHypothesis none tail with same | inBefore | inEarlier
            · exact Or.inl same
            · exact Or.inr (Or.inl (List.mem_cons_of_mem _ inBefore))
            · rcases List.mem_cons.1 inEarlier with same | further
              · exact Or.inr (Or.inl (same ▸ List.mem_cons_self))
              · exact Or.inr (Or.inr further)

/-! ## Accepted graphs -/

/-- The tasks of a graph, each after the tasks that it depends on. -/
def order (graph : Graph) : List String := finishingOrder graph.names (successors graph.tasks)

/-- What the checks of a graph establish. -/
structure Sound (graph : Graph) : Prop where
  distinct : graph.names.Nodup
  known : ∀ task ∈ graph.tasks, ∀ dependency ∈ task.dependsOn, dependency ∈ graph.names
  /-- The order lists each dependency of a task before the task. -/
  ordered : ∀ task ∈ graph.tasks, ∀ before after, graph.order = before ++ task.name :: after →
    ∀ dependency ∈ task.dependsOn, dependency ∈ before

namespace Sound

variable {graph : Graph}

theorem mem_order (sound : graph.Sound) {name : String} (listed : name ∈ graph.names) :
    name ∈ graph.order :=
  mem_finishingOrder sound.distinct listed

theorem order_nodup (sound : graph.Sound) : graph.order.Nodup :=
  finishingOrder_nodup sound.distinct

/-- Tasks of the same name are the same task. -/
theorem task_unique (sound : graph.Sound) {first second : Task} (firstListed : first ∈ graph.tasks)
    (secondListed : second ∈ graph.tasks) (same : first.name = second.name) : first = second :=
  List.inj_on_of_nodup_map sound.distinct firstListed secondListed same

/-- What holds of a task as soon as it holds of its dependencies holds of every task. -/
theorem induct (sound : graph.Sound) {P : String → Prop}
    (step : ∀ task ∈ graph.tasks, (∀ dependency ∈ task.dependsOn, P dependency) → P task.name) :
    ∀ name ∈ graph.names, P name := by
  have upTo : ∀ before after, graph.order = before ++ after →
      ∀ name ∈ before, name ∈ graph.names → P name := by
    intro before
    induction before using List.reverseRecOn with
    | nil => simp
    | append_singleton before last inductionHypothesis =>
        intro after split name member listed
        have splitBefore : graph.order = before ++ last :: after := by
          rw [split, List.append_assoc, List.singleton_append]
        rcases List.mem_append.1 member with inBefore | isLast
        · exact inductionHypothesis _ splitBefore name inBefore listed
        · cases List.mem_singleton.1 isLast
          obtain ⟨task, taskListed, rfl⟩ := List.mem_map.1 listed
          apply step task taskListed
          intro dependency depends
          exact inductionHypothesis _ splitBefore dependency
            (sound.ordered task taskListed before after splitBefore dependency depends)
            (sound.known task taskListed dependency depends)
  intro name listed
  exact upTo graph.order [] (List.append_nil _).symm name (sound.mem_order listed) listed

end Sound

theorem findTask?_of_mem {tasks : List Task} (distinctNames : (tasks.map Task.name).Nodup)
    {task : Task} (member : task ∈ tasks) : findTask? tasks task.name = some task := by
  obtain ⟨other, found⟩ : ∃ other, findTask? tasks task.name = some other :=
    Option.isSome_iff_exists.1 (List.find?_isSome.2 ⟨task, member, beq_self_eq_true _⟩)
  have sameName : (other.name == task.name) = true := by
    simpa only using List.find?_some found
  rw [found, List.inj_on_of_nodup_map distinctNames (List.mem_of_find?_eq_some found) member
    (beq_iff_eq.1 sameName)]

theorem predecessors_of_mem {tasks : List Task} (distinctNames : (tasks.map Task.name).Nodup)
    {task : Task} (member : task ∈ tasks) :
    predecessors tasks task.name = distinct task.dependsOn := by
  have found := findTask?_of_mem distinctNames member
  rw [findTask?] at found
  rw [predecessors, found]

/-- A graph that is accepted is sound. -/
theorem sound_of_ofTasks {tasks : List Task} {graph : Graph}
    (accepted : ofTasks tasks = .ok graph) :
    graph.Sound := by
  rw [ofTasks] at accepted
  split at accepted
  next => cases accepted
  next noneRepeated =>
    dsimp only at accepted
    split at accepted
    next => cases accepted
    next noProblem =>
      split at accepted
      next => cases accepted
      next noCycle =>
        cases accepted
        have distinctNames : ((sortByName tasks).map Task.name).Nodup :=
          (((sortByName_perm tasks).map Task.name).nodup_iff).2
            (nodup_of_firstRepeated? noneRepeated).1
        refine ⟨distinctNames, ?_, ?_⟩
        · intro task member dependency depends
          exact (dependency_known noProblem member depends).2
        · intro task member before after split dependency depends
          have precedes : dependency ∈ predecessors (sortByName tasks) task.name := by
            rw [predecessors_of_mem distinctNames member, mem_distinct]
            exact depends
          rcases previous_mem_of_firstUnordered? noCycle split precedes with same | earlier | never
          · exact absurd same (dependency_known noProblem member depends).1
          · exact earlier
          · cases never

/-! ## Two tasks in a row -/

/-- Two tasks, the second of which depends on the first. -/
def pairTasks : List Task :=
  [⟨"first", "Sleep", [], 1, .zero, .null⟩, ⟨"second", "Sleep", ["first"], 1, .zero, .null⟩]

/-- The graph of the two tasks. -/
def pair : Graph := ⟨pairTasks⟩

theorem pair_accepted : ofTasks pairTasks = .ok pair := by cbv

/-! ## Two tasks side by side -/

/-- Two tasks that do not depend on each other, with two attempts each. -/
def rivalTasks : List Task :=
  [⟨"left", "Sleep", [], 2, .zero, .null⟩, ⟨"right", "Sleep", [], 2, .zero, .null⟩]

/-- The graph of the two tasks. -/
def rivals : Graph := ⟨rivalTasks⟩

theorem rivals_accepted : ofTasks rivalTasks = .ok rivals := by cbv

/-! ## One task -/

/-- One task, which sleeps for no time. -/
def loneTasks : List Task := [⟨"a", "Sleep", [], 1, .zero, .obj [("seconds", .int 0)]⟩]

/-- The graph of the task. -/
def lone : Graph := ⟨loneTasks⟩

theorem lone_accepted : ofTasks loneTasks = .ok lone := by cbv

end JobGraph.Graph
