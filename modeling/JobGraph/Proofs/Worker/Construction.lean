import JobGraph.Proofs.Graph.Acceptance
import JobGraph.Proofs.Run.Visibility
import JobGraph.Proofs.Worker.FrameStreams
import JobGraph.Proofs.Worker.Reports

/-!
# Checked tasks are made by their workers

Before a job runs, a registry tries to make each of its tasks.  The check goes through all of them:
what it tells has one problem for each task at fault, in the order of their names
(`Registry.exists_atFault`).

A worker makes the task once more, from the request that it reads.  The request of an attempt has
the variant and the parameters of the task, whatever the attempt and the store are
(`Run.exists_of_launched`), and the worker reads what was sent (`Worker.readRequest_line`), so what
was checked can be made.
-/

namespace JobGraph

open Json (Value maximumDepth)

/-! ## Tasks at fault -/

namespace Registry

variable {α : Type} {registry : Registry α} {graph : Graph} {task : Task}
  {problem : VariantProblem}

/-- The variant of a task is registered and makes a task of its parameters. -/
def Makes (registry : Registry α) (task : Task) : Prop :=
  registry.contains task.variant = true ∧
    ∃ made, registry.construct task.variant task.parameters = .ok made

/-- Why a task cannot be made: its variant is not registered, or refuses its parameters. -/
inductive Faults (registry : Registry α) (task : Task) : VariantProblem → Prop
  | unknown (absent : registry.contains task.variant = false) :
      Faults registry task (.unknownVariant task.name task.variant)
  | refused {failure : Failure} (registered : registry.contains task.variant = true)
      (fails : registry.construct task.variant task.parameters = .error failure) :
      Faults registry task (.invalidParameters task.name failure.oneLine)

/-- The tasks of a graph that cannot be made, by name. -/
structure AtFault (registry : Registry α) (graph : Graph) (faulty : List Task) : Prop where
  ordered : faulty.Pairwise fun first second => first.name < second.name
  mem_iff : ∀ task, task ∈ faulty ↔ task ∈ graph.tasks ∧ ¬registry.Makes task

theorem problem?_eq_none_iff : registry.problem? task = none ↔ registry.Makes task := by
  rw [problem?, Makes]
  cases registered : registry.contains task.variant with
  | false => simp
  | true => cases made : registry.construct task.variant task.parameters <;> simp

theorem faults_of_problem? (found : registry.problem? task = some problem) :
    registry.Faults task problem := by
  rw [problem?] at found
  cases registered : registry.contains task.variant with
  | false =>
    simp only [registered, Bool.false_eq_true, if_false, Option.some_inj] at found
    exact found ▸ .unknown registered
  | true =>
    cases made : registry.construct task.variant task.parameters with
    | ok _ => simp [registered, made] at found
    | error failure =>
      simp only [registered, made, if_true, Option.some_inj] at found
      exact found ▸ .refused registered made

/-- Each problem is that of one task at fault, in the order of the tasks. -/
theorem forall₂_filterMap_problem? (registry : Registry α) (tasks : List Task) :
    List.Forall₂ registry.Faults (tasks.filter fun task => (registry.problem? task).isSome)
      (tasks.filterMap registry.problem?) := by
  induction tasks with
  | nil => exact .nil
  | cons task rest inductionHypothesis =>
    cases found : registry.problem? task with
    | none => simpa [List.filter_cons, List.filterMap_cons, found] using inductionHypothesis
    | some problem =>
      simpa [List.filter_cons, List.filterMap_cons, found] using
        ⟨faults_of_problem? found, inductionHypothesis⟩

theorem exists_atFault (registry : Registry α)
    (ordered : graph.tasks.Pairwise fun first second => first.name < second.name) :
    ∃ faulty, registry.AtFault graph faulty ∧
      List.Forall₂ registry.Faults faulty (registry.problems graph) := by
  refine ⟨_, ⟨ordered.filter _, fun task => ?_⟩, forall₂_filterMap_problem? registry graph.tasks⟩
  rw [List.mem_filter, ← problem?_eq_none_iff, Option.isSome_iff_ne_none]

theorem checkVariants_eq_ok_iff :
    registry.checkVariants graph = .ok () ↔ ∀ task ∈ graph.tasks, registry.Makes task := by
  have nothing : registry.checkVariants graph = .ok () ↔ registry.problems graph = [] := by
    unfold checkVariants
    split <;> simp_all
  simp only [nothing, problems, List.filterMap_eq_nil_iff, problem?_eq_none_iff]

theorem checkVariants_of_several (several : 2 ≤ (registry.problems graph).length) :
    registry.checkVariants graph = .error (.job (.severalVariants (registry.problems graph))) := by
  unfold checkVariants
  split
  next nothing => simp [nothing] at several
  next single => simp [single] at several
  next => rfl

/-- Several problems are told with their number, one below the other. -/
theorem message_severalVariants (problems : List VariantProblem) :
    (JobProblem.severalVariants problems).message =
      "errors exist in the job definition for " ++ toString problems.length ++ " tasks:" ++
        String.join (problems.map fun problem => "\n  - " ++ problem.message) := by
  unfold JobProblem.message
  dsimp only
  rfl

end Registry

/-! ## Requests on their way -/

/-- A frame is sent as its line: there is no end of a line in it. -/
theorem Executable.frameLine_eq {frame : ControlFrame} (plain : frame.Plain) :
    frameLine frame = frame.line := by
  have whole : '\n' ∉ frame.line.toList := (ControlFrame.isLine plain).whole
  have kept : frame.line.toList.filter (· ≠ '\n') = frame.line.toList :=
    List.filter_eq_self.2 fun c listed => decide_eq_true fun same => whole (same ▸ listed)
  have last : "\n".toList.filter (· ≠ '\n') = [] := by decide
  rw [frameLine, ControlFrame.encode_eq, String.toList_append, List.filter_append, kept, last,
    List.append_nil, String.ofList_toList]

/-- A worker that has read a request goes on with it, whatever else it is told. -/
theorem Worker.exists_serveWith_eq (make : String → Factory TaskHooks) {line : String}
    {request : Request} (read : readRequest line = .ok request) (moment : Nat)
    (later : List (Nat × String)) (signal : Option Nat) :
    ∃ stop, serveWith make ((moment, line) :: later) signal = ofRequest make request stop := by
  simp only [serveWith, List.head?_cons, Option.map_some, Option.getD_some, read]
  exact ⟨_, rfl⟩

/-- The request is that of an attempt at one of the tasks, whatever its number and the store are. -/
def Graph.Asks (graph : Graph) (request : Request) : Prop :=
  ∃ runner : Runner, runner.task ∈ graph.tasks ∧ ∃ store, request = runner.request store

theorem Run.asks_of_launched {graph : Graph} {seeds : KeyMap Seed} {limit : Nat} {store : Store}
    {cancelled keeps saves : Bool} {slot : Option Snapshot} {steps : List Step} {run : Run}
    (course : (start graph limit seeds store cancelled keeps saves slot).steps? steps = some run)
    {request : Request} (launched : request ∈ run.scene.launches) : graph.Asks request := by
  obtain ⟨index, there⟩ := List.getElem?_of_mem launched
  obtain ⟨_, _, before, runner, _, reached, _, found, _, same⟩ := exists_launch rfl course there
  have orderly : Orderly graph seeds before :=
    steps?_invariant reached Orderly.start fun orderly change => orderly.change change
  exact ⟨runner, (orderly.staffed found).1, _, same⟩

/-! ## The check and the workers -/

namespace Registry

/-- The request of an attempt at a task that can be made is carried out. -/
theorem exists_attempt_of_asks {registry : Registry TaskHooks} {graph : Graph}
    (checked : registry.checkVariants graph = .ok ()) {request : Request}
    (asks : graph.Asks request) (plain : request.Plain)
    (shallow : (ControlFrame.start request).depth ≤ maximumDepth) (moment : Nat)
    (later : List (Nat × String)) (signal : Option Nat) :
    ∃ hooks, registry.construct request.variant request.parameters = .ok hooks ∧
      ∃ stop, Worker.serveWith registry.construct
        ((moment, Executable.frameLine (.start request)) :: later) signal =
          Worker.attempt hooks request stop := by
  obtain ⟨runner, listed, store, rfl⟩ := asks
  obtain ⟨-, hooks, made⟩ := checkVariants_eq_ok_iff.1 checked runner.task listed
  have frame : (ControlFrame.start (runner.request store)).Plain := plain
  have read : Worker.readRequest (Executable.frameLine (.start (runner.request store))) =
      .ok (runner.request store) := by
    rw [Executable.frameLine_eq frame]
    exact Worker.readRequest_line plain shallow
  have built : registry.construct (runner.request store).variant
      (runner.request store).parameters = .ok hooks := made
  obtain ⟨stop, serves⟩ :=
    Worker.exists_serveWith_eq registry.construct read moment later signal
  refine ⟨hooks, built, stop, ?_⟩
  rw [serves, Worker.ofRequest, built]

/-- The tasks of an accepted graph pass the check of a registry exactly if each of them can be made.
A single task at fault is told as it is, and several are told in a list with one problem for each,
by name, and with their number.  Once the tasks have passed, the worker of every attempt at any of
them makes its task, whatever the number of the attempt, the store, and what else the worker is
told. -/
theorem checked_tasks_are_made_by_workers {tasks : List Task} {graph : Graph}
    (accepted : Graph.ofTasks tasks = .ok graph) (registry : Registry TaskHooks) :
    (registry.checkVariants graph = .ok () ↔ ∀ task ∈ graph.tasks, registry.Makes task) ∧
    (∃ faulty problems, registry.AtFault graph faulty ∧
      List.Forall₂ registry.Faults faulty problems ∧
      (∀ task, faulty = [task] → ∃ problem, registry.Faults task problem ∧
        registry.checkVariants graph = .error (.variant problem)) ∧
      (2 ≤ faulty.length →
        registry.checkVariants graph = .error (.job (.severalVariants problems)) ∧
        (JobProblem.severalVariants problems).message =
          "errors exist in the job definition for " ++ toString faulty.length ++ " tasks:" ++
            String.join (problems.map fun problem => "\n  - " ++ problem.message))) ∧
    (∀ {seeds limit store cancelled keeps saves slot steps run},
      (Run.start graph limit seeds store cancelled keeps saves slot).steps? steps = some run →
        ∀ request ∈ run.scene.launches, graph.Asks request) ∧
    (registry.checkVariants graph = .ok () →
      ∀ request, graph.Asks request → request.Plain →
        (ControlFrame.start request).depth ≤ maximumDepth →
        ∀ moment later signal,
          ∃ hooks, registry.construct request.variant request.parameters = .ok hooks ∧
            ∃ stop, Worker.serveWith registry.construct
              ((moment, Executable.frameLine (.start request)) :: later) signal =
                Worker.attempt hooks request stop) := by
  have ordered : graph.tasks.Pairwise fun first second => first.name < second.name := by
    have verdict := Graph.verdict_ofTasks tasks
    rw [accepted] at verdict
    cases verdict with
    | accepted _ _ _ order => exact order.ordered
  obtain ⟨faulty, atFault, told⟩ := registry.exists_atFault ordered
  refine ⟨checkVariants_eq_ok_iff, ⟨faulty, registry.problems graph, atFault, told, ?_, ?_⟩,
    fun course request launched => Run.asks_of_launched course launched,
    fun checked request asks plain shallow => exists_attempt_of_asks checked asks plain shallow⟩
  · rintro task rfl
    obtain ⟨problem, nothing, fault, rest, single⟩ := List.forall₂_cons_left_iff.1 told
    rw [List.forall₂_nil_left_iff.1 rest] at single
    refine ⟨problem, fault, ?_⟩
    rw [checkVariants, single]
  · intro several
    rw [told.length_eq] at several ⊢
    exact ⟨checkVariants_of_several several, message_severalVariants _⟩

/-- Knows one variant, which takes no parameters. -/
def strict : Registry TaskHooks :=
  ⟨KeyMap.empty.insert "Sleep" fun parameters =>
    if parameters = .null then .ok .clumsy else .error (.ofText "no parameters are taken")⟩

/-- Two tasks that the strict registry does not make, by name, and one between them that it does. -/
def flawedTasks : List Task :=
  [⟨"a", "Nap", [], 1, .zero, .null⟩, ⟨"b", "Sleep", [], 1, .zero, .null⟩,
    ⟨"c", "Sleep", ["b"], 1, .zero, .bool true⟩]

theorem strict_registry_tells_both_and_makes_second_of_pair :
    (∃ faulty problems, strict.AtFault ⟨flawedTasks⟩ faulty ∧
      List.Forall₂ strict.Faults faulty problems ∧
      strict.checkVariants ⟨flawedTasks⟩ = .error (.job (.severalVariants problems))) ∧
    ∃ run, (Run.start Graph.pair 1 .empty .empty false false false none).steps?
        Run.writtenPairSteps = some run ∧
      ∃ request ∈ run.scene.launches, request.name = "second" ∧
        request.store.find? "answer" = some .null ∧
        ∃ hooks stop, Worker.serveWith strict.construct
          [(0, Executable.frameLine (.start request)), (7, Executable.frameLine .abort)] (some 9) =
            Worker.attempt hooks request stop := by
  constructor
  · have accepted : Graph.ofTasks flawedTasks.reverse = .ok ⟨flawedTasks⟩ := by cbv
    obtain ⟨-, ⟨faulty, problems, atFault, faults, -, several⟩, -⟩ :=
      checked_tasks_are_made_by_workers accepted strict
    have first : flawedTasks[0] ∈ faulty := by
      refine (atFault.mem_iff _).2 ⟨List.getElem_mem _, ?_⟩
      rintro ⟨registered, -⟩
      cases registered
    have last : flawedTasks[2] ∈ faulty := by
      refine (atFault.mem_iff _).2 ⟨List.getElem_mem _, ?_⟩
      rintro ⟨-, made, same⟩
      cases same
    refine ⟨faulty, problems, atFault, faults, (several ?_).1⟩
    cases faulty with
    | nil => cases first
    | cons only others =>
      cases others with
      | nil =>
        have same : flawedTasks[0] = flawedTasks[2] :=
          (List.mem_singleton.1 first).trans (List.mem_singleton.1 last).symm
        exact absurd (congrArg Task.name same) (by decide)
      | cons other rest => simp
  · obtain ⟨-, -, launched, checked⟩ :=
      checked_tasks_are_made_by_workers Graph.pair_accepted strict
    obtain ⟨run, reached, request, member, same⟩ :
        ∃ run, (Run.start Graph.pair 1 .empty .empty false false false none).steps?
          Run.writtenPairSteps = some run ∧ ∃ request ∈ run.scene.launches, request =
            ⟨"second", "Sleep", .null, ["first"], 1, false, KeyMap.empty.insert "answer" .null⟩ :=
      ⟨_, rfl, _, List.mem_cons_of_mem _ List.mem_cons_self, rfl⟩
    have null : Value.null.Plain := ⟨trivial, trivial, trivial⟩
    have plain : request.Plain := by
      rw [same]
      refine ⟨null, fun entry listed => ?_, show 1 < attemptBound by decide⟩
      rw [List.mem_singleton.1 listed]
      exact null
    have shallow : (ControlFrame.start request).depth ≤ maximumDepth := by
      rw [same]
      decide
    obtain ⟨hooks, -, stop, serves⟩ :=
      checked rfl request (launched reached request member) plain shallow 0 _ _
    exact ⟨run, reached, request, member, same ▸ rfl, same ▸ rfl, hooks, stop, serves⟩

end Registry

end JobGraph
