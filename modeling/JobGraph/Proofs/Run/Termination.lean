import JobGraph.Proofs.Run.Moves
import JobGraph.Proofs.Run.Progress
import Mathlib.Order.WellFounded

/-!
# Every run ends within bounds

A task makes two moves with each attempt and one more, and its runner counts no more attempts than
the task is given (`Runner.movesLeft`, `Run.Measured`).  Every step in which something happens to a
runner lowers the load of the run.  As long as some runner is not gone, such a step is possible,
whether or not the run was told to stop; so an execution in which possible steps are not put off for
ever comes to a moment at which all runners are gone, each in a terminal state.
-/

namespace JobGraph

/-- The steps in which something happens to a runner. -/
def Step.isOfRunner : Step → Bool
  | .runner _ | .overtaken _ | .ended _ _ | .rested _ => true
  | _ => false

/-! ## The moves that are left -/

/-- The moves that a task may make after a state is published, by the attempts left. -/
def Next.movesLeft (left : Nat) : Next → Nat
  | .wait | .pause => 2 * left
  | .launch => 2 * left + 1
  | .leave => 0

namespace Runner

/-- The moves that a task may still make. -/
def movesLeft (runner : Runner) : Nat :=
  match runner.phase with
  | .ready | .launching | .attempting | .reported _ => 2 * runner.attemptsLeft + 1
  | .arrived | .waiting _ _ | .asking | .queued | .pausing | .resting _ => 2 * runner.attemptsLeft
  | .announcing _ next => next.movesLeft runner.attemptsLeft + 1
  | .publishing _ next => next.movesLeft runner.attemptsLeft
  | .leaving | .gone => 0

variable {handle? : String → Option Handle} {runner next : Runner} {scene after : Scene}
  {step : Step}

/-- A move uses up one of those that were left, and no other step adds to them. -/
theorem Act.movesLeft_le (act : runner.Act handle? scene step next after) (fits : runner.Fits) :
    next.movesLeft + runner.phase.announced.length ≤ runner.movesLeft := by
  have positive := attemptLimit_pos runner.task
  cases act with
  | stop heeds =>
      cases phase : runner.phase with
      | ready | arrived | waiting | asking | resting | reported =>
          simp only [Fits, phase] at fits
          simp only [movesLeft, phase, Runner.abort, Runner.announce, Next.movesLeft, attemptsLeft,
            Phase.announced, List.length_nil]
          omega
      | _ => simp [Phase.heedsStop, phase] at heeds
  | publish phase =>
      rename_i target further
      simp only [movesLeft, phase, Phase.announced, List.length_nil, Nat.add_zero]
      cases further <;> exact Nat.le_refl _
  | announce phase =>
      simp only [movesLeft, phase, Phase.announced, List.length_singleton]
      exact Nat.le_refl _
  | pass phase | enter phase =>
      simp only [Fits, phase] at fits
      simp only [movesLeft, phase, Runner.enterAttempt, Runner.announce, Next.movesLeft,
        attemptsLeft,
        Phase.announced, List.length_nil]
      omega
  | restore phase | start phase | arrive phase | hear phase | miss phase | giveUp phase | skip phase
  | clear phase | queue phase | withdraw phase | launch phase | finish phase | obey phase
  | succeed phase | exhaust phase | retry phase | fail phase | release phase | wake phase
  | leave phase =>
      simp only [Fits, phase] at fits
      simp only [movesLeft, phase, Runner.abort, Runner.announce, Next.movesLeft, attemptsLeft,
        Phase.announced, List.length_nil]
      omega

theorem Act.isOfRunner (act : runner.Act handle? scene step next after) :
    step.isOfRunner = true := by
  cases act with
  | stop _ _ _ turn | hear _ _ _ turn | miss _ _ turn | pass _ _ turn | queue _ _ turn
  | enter _ _ turn => cases step <;> first | rfl | exact absurd turn id
  | _ => rfl

end Runner

/-- Transitions of some tasks are at most as many as those of each of the tasks together. -/
private theorem length_le_sum_moves {names : List String} (transitions : List Transition)
    (known : ∀ transition ∈ transitions, transition.task ∈ names) :
    transitions.length ≤ (names.map fun name =>
      (transitions.filter fun transition => transition.task = name).length).sum := by
  induction transitions with
  | nil => exact Nat.zero_le _
  | cons first rest inductionHypothesis =>
      have earlier := inductionHypothesis fun transition member =>
        known transition (List.mem_cons_of_mem first member)
      have grows : ∀ name, (rest.filter fun transition => transition.task = name).length ≤
          ((first :: rest).filter fun transition => transition.task = name).length := by
        intro name
        exact ((List.sublist_cons_self first rest).filter _).length_le
      have more : (rest.filter fun transition => transition.task = first.task).length <
          ((first :: rest).filter fun transition => transition.task = first.task).length := by
        rw [List.filter_cons_of_pos (by simp), List.length_cons]
        exact Nat.lt_succ_self _
      have less := List.sum_lt_sum _ _ (fun name _ => grows name)
        ⟨first.task, known first List.mem_cons_self, more⟩
      rw [List.length_cons]
      exact Nat.lt_of_le_of_lt earlier less

namespace Run

variable {graph : Graph} {seeds : KeyMap Seed} {first run next : Run} {step : Step}
  {steps : List Step}

/-! ## The moves of a run -/

/-- No task has made more moves than it may. -/
def Measured (run : Run) : Prop :=
  ∀ name runner, run.find? name = some runner →
    (History.targetsOf run.scene.events name).length + runner.movesLeft ≤
      2 * runner.task.attemptLimit + 1

theorem Measured.start {limit : Nat} {store : Store} {cancelled keeps saves : Bool}
    {slot : Option Snapshot} :
    Measured (start graph limit seeds store cancelled keeps saves slot) := by
  intro name runner found
  obtain ⟨task, _, same⟩ := List.mem_map.1 (mem_of_find? found)
  cases same
  exact Nat.le_of_eq (Nat.zero_add _)

theorem Measured.change (measured : Measured run) (orderly : Orderly graph seeds run)
    (change : run.Change step next) : Measured next := by
  cases change with
  | act found act =>
      intro name other otherFound
      rw [act.targets name, List.length_append]
      rcases found_act found act.name otherFound with ⟨rfl, rfl⟩ | ⟨elsewhere, earlier⟩
      · have before := measured _ _ found
        have spent := act.movesLeft_le (orderly.fits found)
        rw [if_pos rfl, act.task]
        omega
      · rw [if_neg (Ne.symm elsewhere)]
        exact measured name other earlier
  | line =>
      intro name other otherFound
      rw [Scene.send, History.targetsOf_append, History.targetsOf_logged, List.append_nil]
      exact measured name other otherFound
  | cancel | aggregate => exact measured
  | aside runners scene =>
      intro name other otherFound
      rw [scene]
      exact measured name other (find?_of_runners runners ▸ otherFound)

theorem Measured.of_steps? (graph : Graph) (seeds : KeyMap Seed) {limit : Nat} {store : Store}
    {cancelled keeps saves : Bool} {slot : Option Snapshot}
    (taken : (Run.start graph limit seeds store cancelled keeps saves slot).steps? steps =
      some run) : Measured run :=
  Orderly.invariant taken Measured.start fun orderly measured change =>
    measured.change orderly change

theorem Measured.moves_le (measured : Measured run) (orderly : Orderly graph seeds run)
    (sound : graph.Sound) {task : Task} (member : task ∈ graph.tasks) :
    (History.movesOf run.scene.events task.name).length ≤ 2 * task.attemptLimit + 1 := by
  have listed : task.name ∈ graph.names := List.mem_map_of_mem member
  obtain ⟨runner, found⟩ := orderly.exists_runner listed
  have isTask : runner.task = task := orderly.task_eq sound member found
  have bound := measured _ runner found
  rw [History.targetsOf, List.length_map, isTask] at bound
  exact Nat.le_of_add_right_le bound

theorem Measured.all_moves_le (measured : Measured run) (orderly : Orderly graph seeds run)
    (sound : graph.Sound) : (History.moves run.scene.events).length ≤
      (graph.tasks.map fun task => 2 * task.attemptLimit + 1).sum := by
  have known : ∀ transition ∈ History.moves run.scene.events, transition.task ∈ graph.names := by
    intro transition member
    obtain ⟨event, inEvents, moved⟩ := List.mem_filterMap.1 member
    obtain ⟨position, inside, there⟩ := List.getElem_of_mem inEvents
    cases event with
    | logged line => cases moved
    | moved other =>
        cases moved
        exact (orderly.sound position transition
          (there ▸ List.getElem?_eq_getElem inside)).1
  have counted := length_le_sum_moves _ known
  refine Nat.le_trans counted ?_
  rw [Graph.names, List.map_map]
  exact List.sum_le_sum fun task member => measured.moves_le orderly sound member

/-! ## The steps of a run -/

theorem Change.runners_eq (change : run.Change step next) (other : step.isOfRunner = false) :
    next.runners = run.runners := by
  cases change with
  | act found act => cases act.isOfRunner.symm.trans other
  | line | cancel | aggregate => rfl
  | aside runners => exact runners

/-- A step in which something happens to a runner lowers the load. -/
theorem Orderly.load_lt (orderly : Orderly graph seeds run) (sound : graph.Sound)
    (change : run.Change step next) (own : step.isOfRunner = true) : next.load < run.load := by
  have distinct := orderly.distinct sound
  cases change with
  | act found act => exact load_put_lt distinct found act.name (act.work_lt (orderly.fits found))
  | line | cancel | aggregate => cases own
  | aside _ _ _ aside => cases step <;> first | exact absurd aside id | cases own

theorem Orderly.load_le (orderly : Orderly graph seeds run) (sound : graph.Sound)
    (change : run.Change step next) : next.load ≤ run.load := by
  cases own : step.isOfRunner with
  | true => exact Nat.le_of_lt (orderly.load_lt sound change own)
  | false => rw [load, load, change.runners_eq own]

/-- All steps of the runners together use up the load of the first state of a run. -/
theorem Orderly.steps_le (orderly : Orderly graph seeds first) (sound : graph.Sound)
    (taken : first.steps? steps = some run) :
    steps.countP Step.isOfRunner + run.load ≤ first.load := by
  induction steps generalizing first with
  | nil =>
      cases taken
      exact Nat.le_of_eq (Nat.zero_add _)
  | cons step rest inductionHypothesis =>
      obtain ⟨next, stepped, further⟩ := Option.bind_eq_some_iff.1 taken
      have change := change_of_step? stepped
      have later := inductionHypothesis (orderly.change change) further
      rw [List.countP_cons]
      cases own : step.isOfRunner with
      | true =>
          have less := orderly.load_lt sound change own
          rw [if_pos rfl]
          omega
      | false =>
          have same : next.load = first.load := by rw [load, load, change.runners_eq own]
          rw [if_neg Bool.false_ne_true]
          omega

/-! ## As long as somebody is there, somebody can go on -/

/-- The invariants of a run that keep it from getting stuck. -/
structure Unblocked (graph : Graph) (seeds : KeyMap Seed) (run : Run) : Prop where
  orderly : Orderly graph seeds run
  careful : Careful run
  permitted : Permitted run

namespace Unblocked

theorem of_steps? (sound : graph.Sound) (restores : seeds.RestoresCleared) {limit : Nat}
    {store : Store} {cancelled keeps saves : Bool} {slot : Option Snapshot}
    (taken : (start graph limit seeds store cancelled keeps saves slot).steps? steps = some run) :
    Unblocked graph seeds run := by
  refine steps?_invariant taken ⟨Orderly.start, Careful.start, Permitted.start⟩ ?_
  rintro run next step ⟨orderly, careful, permitted⟩ change
  exact ⟨orderly.change change, careful.change orderly sound restores change,
    permitted.change change⟩

variable (unblocked : Unblocked graph seeds run)

include unblocked

theorem enabled_or_quiet (sound : graph.Sound) :
    (∃ name, run.Enabled name) ∨ run.isQuiet = true := by
  have orderly := unblocked.orderly
  have distinct := orderly.distinct sound
  rcases unblocked.permitted.enabled_or_gone orderly sound unblocked.careful.waits with
    enabled | gone
  · exact Or.inl enabled
  · refine Or.inr (List.all_eq_true.2 ?_)
    intro runner member
    have found : run.find? runner.name = some runner := find?_of_mem distinct member
    exact decide_eq_true (gone _ (orderly.name_mem found) runner found)

theorem terminal_of_quiet (sound : graph.Sound) (restores : seeds.RestoresCleared)
    (quiet : run.isQuiet = true) {runner : Runner} (member : runner ∈ run.runners) :
    runner.state.isTerminal = true := by
  have orderly := unblocked.orderly
  have found : run.find? runner.name = some runner := find?_of_mem (orderly.distinct sound) member
  have gone : runner.phase = .gone := of_decide_eq_true (List.all_eq_true.1 quiet runner member)
  exact orderly.isTerminal_of_gone restores found gone

end Unblocked

theorem isQuiet_change (change : run.Change step next) (quiet : run.isQuiet = true) :
    next.isQuiet = true := by
  cases change with
  | act found act =>
      have busy := isQuiet_of_found found act.not_gone
      cases busy.symm.trans quiet
  | line | cancel | aggregate => exact quiet
  | aside runners =>
      rw [isQuiet, runners]
      exact quiet

theorem Enabled.not_quiet {name : String} (enabled : run.Enabled name) : run.isQuiet = false := by
  have busy : ∀ {step : Step} {next : Run}, run.step? step = some next → step.isOfRunner = true →
      run.isQuiet = false := by
    intro step next taken own
    cases change_of_step? taken with
    | act found act => exact isQuiet_of_found found act.not_gone
    | line | cancel | aggregate => cases own
    | aside _ _ _ aside => cases step <;> first | exact absurd aside id | cases own
  rcases enabled with ⟨next, taken⟩ | ends | ⟨next, taken⟩
  · exact busy taken rfl
  · obtain ⟨next, taken⟩ := ends (.error .dataText)
    exact busy taken rfl
  · exact busy taken rfl

/-! ## Endless executions -/

/-- An endless execution; at a moment without a step nothing happens. -/
structure Execution (first : Run) where
  state : Nat → Run
  step : Nat → Option Step
  starts : state 0 = first
  stays : ∀ moment, step moment = none → state (moment + 1) = state moment
  takes : ∀ moment taken, step moment = some taken →
    (state moment).step? taken = some (state (moment + 1))

namespace Execution

/-- Whenever a runner can go on, or an attempt or a pause can end, one of them does so at some time;
in particular attempts come back. -/
def Progresses (execution : Execution first) : Prop :=
  ∀ moment name, (execution.state moment).Enabled name →
    ∃ later step, moment ≤ later ∧ execution.step later = some step ∧ step.isOfRunner = true

variable (execution : Execution first)

theorem exists_steps (moment : Nat) :
    ∃ steps, first.steps? steps = some (execution.state moment) := by
  induction moment with
  | zero => exact ⟨[], by rw [execution.starts]; rfl⟩
  | succ moment inductionHypothesis =>
      obtain ⟨steps, reached⟩ := inductionHypothesis
      cases here : execution.step moment with
      | none => exact ⟨steps, by rw [execution.stays moment here]; exact reached⟩
      | some step =>
          refine ⟨steps ++ [step], ?_⟩
          rw [steps?_append, reached, Option.bind_some, steps?, execution.takes moment step here]
          rfl

/-- What no step undoes stays true. -/
theorem always {P : Run → Prop} {moment later : Nat} (order : moment ≤ later)
    (stays : ∀ {run next : Run} {step : Step}, P run → run.Change step next → P next)
    (here : P (execution.state moment)) : P (execution.state later) := by
  induction later, order using Nat.le_induction with
  | base => exact here
  | succ later _ inductionHypothesis =>
      cases taken : execution.step later with
      | none => exact (execution.stays later taken).symm ▸ inductionHypothesis
      | some step =>
          exact stays inductionHypothesis (change_of_step? (execution.takes later step taken))

/-- An execution that progresses comes to a moment from which on all runners are gone. -/
theorem exists_quiet (progresses : execution.Progresses) (sound : graph.Sound)
    (unblocked : ∀ moment, Unblocked graph seeds (execution.state moment)) :
    ∃ moment, ∀ later, moment ≤ later → (execution.state later).isQuiet = true := by
  -- At a moment of least load nobody can go on any more.
  let load : Nat → Nat := fun moment => (execution.state moment).load
  let moment := Function.argmin load
  refine ⟨moment, fun later order => execution.always order
    (fun quiet change => isQuiet_change change quiet) ?_⟩
  rcases (unblocked moment).enabled_or_quiet sound with ⟨name, enabled⟩ | quiet
  · obtain ⟨later, step, order, taken, own⟩ := progresses moment name enabled
    have change := change_of_step? (execution.takes later step taken)
    have lower : load (later + 1) < load later :=
      (unblocked later).orderly.load_lt sound change own
    have descends : Orderly graph seeds (execution.state later) ∧ load later ≤ load moment := by
      refine execution.always (P := fun run => Orderly graph seeds run ∧ run.load ≤ load moment)
        order ?_ ⟨(unblocked moment).orderly, Nat.le_refl _⟩
      rintro run next step ⟨orderly, below⟩ change
      exact ⟨orderly.change change, Nat.le_trans (orderly.load_le sound change) below⟩
    have least : load moment ≤ load (later + 1) := Function.argmin_le load (later + 1)
    omega
  · exact quiet

/-- Nothing happens in it. -/
private def still (first : Run) : Execution first :=
  ⟨fun _ => first, fun _ => none, rfl, fun _ _ => rfl, fun _ _ taken => by cases taken⟩

/-- An execution with one more step in front. -/
private def after {second : Run} (step : Step) (taken : first.step? step = some second)
    (execution : Execution second) : Execution first where
  state
    | 0 => first
    | moment + 1 => execution.state moment
  step
    | 0 => some step
    | moment + 1 => execution.step moment
  starts := rfl
  stays
    | 0, same => by cases same
    | moment + 1, same => execution.stays moment same
  takes
    | 0, _, same => by
      cases same
      exact taken.trans (congrArg some execution.starts.symm)
    | moment + 1, other, same => execution.takes moment other same

/-- A course in whose end all runners are gone is the front of an execution that progresses. -/
theorem exists_of_course {last : Run} (taken : first.steps? steps = some last)
    (quiet : last.isQuiet = true) :
    ∃ execution : Execution first, execution.Progresses ∧ execution.state steps.length = last := by
  have busy : ∃ execution : Execution first, execution.state steps.length = last ∧
      ∀ moment, (execution.state moment).isQuiet = false → ∃ later step, moment ≤ later ∧
        execution.step later = some step ∧ step.isOfRunner = true := by
    induction steps generalizing first with
    | nil =>
        cases taken
        exact ⟨still last, rfl, fun moment here => by cases here.symm.trans quiet⟩
    | cons step rest inductionHypothesis =>
        obtain ⟨second, stepped, further⟩ := Option.bind_eq_some_iff.1 taken
        obtain ⟨execution, comes, goes⟩ := inductionHypothesis further
        refine ⟨after step stepped execution, comes, ?_⟩
        intro moment here
        cases moment with
        | succ moment =>
            obtain ⟨later, other, order, same, own⟩ := goes moment here
            exact ⟨later + 1, other, Nat.succ_le_succ order, same, own⟩
        | zero =>
            cases own : step.isOfRunner with
            | true => exact ⟨0, step, Nat.le_refl 0, rfl, own⟩
            | false =>
                have same : second.runners = first.runners :=
                  (change_of_step? stepped).runners_eq own
                have still : (execution.state 0).isQuiet = false := by
                  rw [execution.starts, isQuiet, same]
                  exact here
                obtain ⟨later, other, _, taken, own⟩ := goes 0 still
                exact ⟨later + 1, other, Nat.zero_le _, taken, own⟩
  obtain ⟨execution, comes, goes⟩ := busy
  exact ⟨execution, fun moment name enabled => goes moment enabled.not_quiet, comes⟩

end Execution

/-- In every run, whoever was told to stop and whatever the limit, somebody among the runners can go
on as long as some task has not ended; a task makes at most two moves with each attempt and one
more, its attempts stay within those it is given, and the runners take no more steps than they are
loaded with at the start.  So every execution that progresses comes to a moment from which on all
tasks have ended. -/
theorem runs_end_within_bounds {tasks : List Task} (accepted : Graph.ofTasks tasks = .ok graph)
    (restores : seeds.RestoresCleared) {limit : Nat} {store : Store} {cancelled keeps saves : Bool}
    {slot : Option Snapshot} :
    (∀ steps run,
      (start graph limit seeds store cancelled keeps saves slot).steps? steps = some run →
      (∀ runner ∈ run.runners, runner.state.isTerminal = false → ∃ name, run.Enabled name) ∧
      (∀ task ∈ graph.tasks, (History.movesOf run.scene.events task.name).length ≤
        2 * max 1 task.maxAttempts + 1) ∧
      (History.moves run.scene.events).length ≤
        (graph.tasks.map fun task => 2 * max 1 task.maxAttempts + 1).sum ∧
      (∀ runner ∈ run.runners, runner.attempts ≤ max 1 runner.task.maxAttempts ∧
        (runner.task.maxAttempts < attemptBound → runner.attempts < attemptBound)) ∧
      steps.countP Step.isOfRunner ≤
        (start graph limit seeds store cancelled keeps saves slot).load) ∧
    ∀ execution : Execution (start graph limit seeds store cancelled keeps saves slot),
      execution.Progresses → ∃ moment, ∀ later, moment ≤ later →
        ∀ runner ∈ (execution.state later).runners, runner.state.isTerminal = true := by
  have sound := Graph.sound_of_ofTasks accepted
  refine ⟨?_, ?_⟩
  · intro steps run taken
    have unblocked : Unblocked graph seeds run := Unblocked.of_steps? sound restores taken
    have orderly := unblocked.orderly
    have distinct := orderly.distinct sound
    have measured : Measured run := Measured.of_steps? graph seeds taken
    have started : Orderly graph seeds
        (start graph limit seeds store cancelled keeps saves slot) := Orderly.start
    refine ⟨?_, fun task member => measured.moves_le orderly sound member,
      measured.all_moves_le orderly sound, ?_, ?_⟩
    · intro runner member active
      rcases unblocked.enabled_or_quiet sound with enabled | quiet
      · exact enabled
      · cases active.symm.trans (unblocked.terminal_of_quiet sound restores quiet member)
    · intro runner member
      have within : runner.attempts ≤ max 1 runner.task.maxAttempts :=
        (orderly.fits (find?_of_mem distinct member)).attempts_le
      refine ⟨within, fun bounded => Nat.lt_of_le_of_lt within (max_lt ?_ bounded)⟩
      decide
    · exact Nat.le_of_add_right_le (started.steps_le sound taken)
  · intro execution progresses
    have unblocked : ∀ moment, Unblocked graph seeds (execution.state moment) := by
      intro moment
      obtain ⟨steps, reached⟩ := execution.exists_steps moment
      exact Unblocked.of_steps? sound restores reached
    obtain ⟨moment, quiet⟩ := execution.exists_quiet progresses sound unblocked
    refine ⟨moment, fun later order runner member => ?_⟩
    exact (unblocked later).terminal_of_quiet sound restores (quiet later order) member

/-- Two tasks that do not depend on each other, for one permit: the first runs, the other waits. -/
def contendedSteps : List Step :=
  List.replicate 9 (.runner "left") ++ List.replicate 6 (.runner "right")

/-- The rest of the run, to its end. -/
def yieldedSteps : List Step :=
  [.ended "left" (.report ⟨false, false, []⟩)] ++ List.replicate 4 (.runner "left") ++
    List.replicate 4 (.runner "right") ++ [.ended "right" (.report ⟨true, true, []⟩)] ++
      List.replicate 4 (.runner "right")

theorem contended_run_ends :
    (∃ run, (start Graph.rivals 1 .empty .empty false false false none).steps? contendedSteps =
      some run ∧ run.step? (.runner "right") = none ∧ ∃ name, run.Enabled name) ∧
    ∃ execution : Execution (start Graph.rivals 1 .empty .empty false false false none),
      execution.Progresses ∧ ∃ moment, ∀ later, moment ≤ later →
        ∀ runner ∈ (execution.state later).runners, runner.state.isTerminal = true := by
  have restores : KeyMap.RestoresCleared .empty := fun _ _ known => by cases known
  refine ⟨?_, ?_⟩
  · obtain ⟨run, reached, waits, runner, member, active⟩ :
        ∃ run, (start Graph.rivals 1 .empty .empty false false false none).steps? contendedSteps =
          some run ∧ run.step? (.runner "right") = none ∧
            ∃ runner ∈ run.runners, runner.state.isTerminal = false :=
      ⟨_, rfl, rfl, _, List.mem_cons_self, rfl⟩
    have bounds := (runs_end_within_bounds Graph.rivals_accepted restores).1 _ _ reached
    exact ⟨run, reached, waits, bounds.1 runner member active⟩
  · obtain ⟨last, reached, quiet⟩ :
        ∃ last, (start Graph.rivals 1 .empty .empty false false false none).steps?
          (contendedSteps ++ yieldedSteps) = some last ∧ last.isQuiet = true := ⟨_, rfl, rfl⟩
    obtain ⟨execution, progresses, _⟩ := Execution.exists_of_course reached quiet
    exact ⟨execution, progresses,
      (runs_end_within_bounds Graph.rivals_accepted restores).2 execution progresses⟩

end Run

end JobGraph
