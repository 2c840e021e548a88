import JobGraph.Proofs.Containers
import JobGraph.Proofs.DependencyOrder
import JobGraph.Proofs.Run.Stages
import Mathlib.Data.Nat.Init

/-!
# The forecast of a run

What a run comes to can be told from its graph, its seeds and how each attempt ends, one task after
the other, dependencies first.  `Graph.forecast` goes through the tasks in this way, without any
scheduling.  `forecast_eq` says that its result depends on no order: every task comes to what its
dependencies and its own attempts make of it.
-/

namespace JobGraph

/-- How an attempt ends, as far as it matters to the state of its task. -/
inductive AttemptKind where
  | success
  | failure
  | abort
  | error
  deriving DecidableEq, Repr

def AttemptResult.kind (result : AttemptResult) : AttemptKind :=
  match result with
  | .error _ => .error
  | .report given =>
    if given.aborted then .abort else if given.failed then .failure else .success

namespace Task

/-- What a task comes to by its attempts from a number on, when so many are left. -/
def verdictFrom (kind : Nat → AttemptKind) : Nat → Nat → TaskState
  | 0, _ => .failed
  | left + 1, attempt =>
    match kind attempt with
    | .success => .completed
    | .failure => verdictFrom kind left (attempt + 1)
    | .abort => .aborted
    | .error => .failed

/-- What a task comes to by its attempts. -/
def verdict (task : Task) (kind : Nat → AttemptKind) : TaskState :=
  verdictFrom kind task.attemptLimit 1

/-- What a task comes to, given what the tasks before it have come to. -/
def foretell (seeds : KeyMap Seed) (kinds : String → Nat → AttemptKind) (known : KeyMap TaskState)
    (task : Task) : TaskState :=
  let blocked := task.dependsOn.any fun dependency =>
    (known.find? dependency).any TaskState.blocksDependents
  match Run.seedOf seeds task.name with
  | .restored state => state
  | .skip => if blocked then .defaulted else .skip
  | .fresh _ => if blocked then .defaulted else task.verdict (kinds task.name)

end Task

/-- Adds what one task comes to. -/
def Graph.foretellNext (graph : Graph) (seeds : KeyMap Seed) (kinds : String → Nat → AttemptKind)
    (known : KeyMap TaskState) (name : String) : KeyMap TaskState :=
  match graph.find? name with
  | some task => known.insert name (task.foretell seeds kinds known)
  | none => known

/-- What the tasks of a graph come to, each told after its dependencies. -/
def Graph.forecast (graph : Graph) (seeds : KeyMap Seed) (kinds : String → Nat → AttemptKind) :
    KeyMap TaskState :=
  graph.order.foldl (graph.foretellNext seeds kinds) .empty

namespace Task

variable {seeds : KeyMap Seed} {kinds : String → Nat → AttemptKind} {known : KeyMap TaskState}
  {task : Task}

/-! ## Attempts one by one -/

section Attempts

variable {kind : Nat → AttemptKind} {attempt : Nat}

/-- As long as attempts fail, the next one decides. -/
theorem verdict_eq_of_failures (positive : 1 ≤ attempt) (bound : attempt ≤ task.attemptLimit)
    (failed : ∀ earlier, 1 ≤ earlier → earlier < attempt → kind earlier = .failure) :
    task.verdict kind = verdictFrom kind (task.attemptLimit - attempt + 1) attempt := by
  induction attempt, positive using Nat.le_induction with
  | base =>
      have whole : task.attemptLimit - 1 + 1 = task.attemptLimit := by omega
      rw [verdict, whole]
  | succ attempt positive inductionHypothesis =>
      have before := inductionHypothesis (by omega) fun earlier first below =>
        failed earlier first (by omega)
      have left : task.attemptLimit - attempt = task.attemptLimit - (attempt + 1) + 1 := by omega
      rw [before, left, verdictFrom, failed attempt positive (Nat.lt_succ_self attempt)]

theorem verdict_of_kind (positive : 1 ≤ attempt) (bound : attempt ≤ task.attemptLimit)
    (failed : ∀ earlier, 1 ≤ earlier → earlier < attempt → kind earlier = .failure)
    (decides : kind attempt ≠ .failure) :
    task.verdict kind = verdictFrom kind 1 attempt := by
  rw [verdict_eq_of_failures positive bound failed]
  cases ends : kind attempt with
  | failure => exact absurd ends decides
  | success | abort | error => simp only [verdictFrom, ends]

/-- A task all attempts of which fail has failed. -/
theorem verdict_of_all_failed
    (failed : ∀ earlier, 1 ≤ earlier → earlier ≤ task.attemptLimit → kind earlier = .failure) :
    task.verdict kind = .failed := by
  have positive := Runner.attemptLimit_pos task
  rw [verdict_eq_of_failures positive (Nat.le_refl _)
    fun earlier first below => failed earlier first (Nat.le_of_lt below)]
  rw [Nat.sub_self, verdictFrom, failed task.attemptLimit positive (Nat.le_refl _), verdictFrom]

end Attempts

/-! ## Tasks one by one -/

theorem foretell_congr {other : KeyMap TaskState}
    (same : ∀ dependency ∈ task.dependsOn, known.find? dependency = other.find? dependency) :
    task.foretell seeds kinds known = task.foretell seeds kinds other := by
  have blocked : (task.dependsOn.any fun dependency =>
        (known.find? dependency).any TaskState.blocksDependents) =
      task.dependsOn.any fun dependency =>
        (other.find? dependency).any TaskState.blocksDependents := by
    rw [Bool.eq_iff_iff, List.any_eq_true, List.any_eq_true]
    constructor
    · rintro ⟨dependency, depends, blocks⟩
      exact ⟨dependency, depends, same dependency depends ▸ blocks⟩
    · rintro ⟨dependency, depends, blocks⟩
      exact ⟨dependency, depends, (same dependency depends).symm ▸ blocks⟩
  simp only [foretell, blocked]

theorem foretell_of_restored {state : TaskState}
    (seed : Run.seedOf seeds task.name = .restored state) :
    task.foretell seeds kinds known = state := by
  simp only [foretell, seed]

theorem foretell_of_blocked {dependency : String} (depends : dependency ∈ task.dependsOn)
    {state : TaskState} (found : known.find? dependency = some state)
    (blocks : state.blocksDependents = true)
    (seed : ∀ state, Run.seedOf seeds task.name ≠ .restored state) :
    task.foretell seeds kinds known = .defaulted := by
  have blocked : (task.dependsOn.any fun dependency =>
      (known.find? dependency).any TaskState.blocksDependents) = true := by
    rw [List.any_eq_true]
    exact ⟨dependency, depends, by rw [found, Option.any_some, blocks]⟩
  cases known : Run.seedOf seeds task.name with
  | restored state => exact absurd known (seed state)
  | skip | fresh => simp only [foretell, known, blocked, if_true]

theorem foretell_of_cleared
    (lets : ∀ dependency ∈ task.dependsOn, ∃ state, known.find? dependency = some state ∧
      state.blocksDependents = false) :
    task.foretell seeds kinds known =
      match Run.seedOf seeds task.name with
      | .restored state => state
      | .skip => .skip
      | .fresh _ => task.verdict (kinds task.name) := by
  have clear : (task.dependsOn.any fun dependency =>
      (known.find? dependency).any TaskState.blocksDependents) = false := by
    rw [List.any_eq_false]
    intro dependency depends
    obtain ⟨state, found, free⟩ := lets dependency depends
    rw [found, Option.any_some, free]
    exact Bool.false_ne_true
  simp only [foretell, clear, Bool.false_eq_true, if_false]

end Task

/-! ## The forecast as an equation -/

namespace Graph

variable {graph : Graph} {seeds : KeyMap Seed} {kinds : String → Nat → AttemptKind}

theorem find?_foretellNext_of_ne {known : KeyMap TaskState} {name other : String}
    (different : name ≠ other) :
    (graph.foretellNext seeds kinds known other).find? name = known.find? name := by
  rw [foretellNext]
  cases graph.find? other with
  | none => rfl
  | some task => simp only [KeyMap.find?_insert, if_neg different]

private theorem find?_foldl_of_not_mem {name : String} {later : List String}
    (absent : name ∉ later) : ∀ known : KeyMap TaskState,
      (later.foldl (graph.foretellNext seeds kinds) known).find? name = known.find? name := by
  induction later with
  | nil => intro known; rfl
  | cons head rest inductionHypothesis =>
      intro known
      have different : name ≠ head := List.ne_of_not_mem_cons absent
      rw [List.foldl_cons, inductionHypothesis (List.not_mem_of_not_mem_cons absent),
        find?_foretellNext_of_ne different]

/-- Every task comes to what its dependencies and its own attempts make of it. -/
theorem forecast_eq (sound : graph.Sound) {task : Task} (member : task ∈ graph.tasks) :
    (graph.forecast seeds kinds).find? task.name =
      some (task.foretell seeds kinds (graph.forecast seeds kinds)) := by
  have listed := sound.mem_order (List.mem_map_of_mem member)
  obtain ⟨before, after, split⟩ := List.append_of_mem listed
  have distinct := sound.order_nodup
  rw [split, List.nodup_middle, List.nodup_cons] at distinct
  have notAfter : task.name ∉ after := fun later =>
    distinct.1 (List.mem_append_right before later)
  have here : graph.find? task.name = some task := findTask?_of_mem sound.distinct member
  have same : ∀ dependency ∈ task.dependsOn,
      (graph.forecast seeds kinds).find? dependency =
        (before.foldl (graph.foretellNext seeds kinds) .empty).find? dependency := by
    intro dependency depends
    have earlier := sound.ordered task member before after split dependency depends
    have notLater : dependency ∉ task.name :: after := by
      intro later
      rcases List.mem_cons.1 later with isTask | inAfter
      · exact distinct.1 (List.mem_append_left after (isTask ▸ earlier))
      · exact List.disjoint_of_nodup_append distinct.2 earlier inAfter
    rw [forecast, split, List.foldl_append, find?_foldl_of_not_mem notLater]
  rw [Task.foretell_congr same, forecast, split, List.foldl_append, List.foldl_cons,
    find?_foldl_of_not_mem notAfter, foretellNext, here]
  simp only [KeyMap.find?_insert, if_true]

/-- The forecast is about the tasks of the graph and nothing else. -/
theorem find?_forecast_of_unknown {name : String} (unknown : name ∉ graph.names) :
    (graph.forecast seeds kinds).find? name = none := by
  have never : ∀ (order : List String) (known : KeyMap TaskState), known.find? name = none →
      (order.foldl (graph.foretellNext seeds kinds) known).find? name = none := by
    intro order
    induction order with
    | nil => exact fun known nothing => nothing
    | cons head rest inductionHypothesis =>
        intro known nothing
        apply inductionHypothesis
        rw [foretellNext]
        cases found : graph.find? head with
        | none => exact nothing
        | some task =>
            have sameName : (task.name == head) = true := by
              simpa only using List.find?_some found
            have listed : head ∈ graph.names :=
              List.mem_map.2 ⟨task, List.mem_of_find?_eq_some found, beq_iff_eq.1 sameName⟩
            have different : name ≠ head := fun same => unknown (same ▸ listed)
            simp only [KeyMap.find?_insert, if_neg different, nothing]
  exact never graph.order .empty rfl

end Graph

end JobGraph
