import JobGraph.Proofs.Run.Delivery
import JobGraph.Proofs.Run.Lifecycle

/-!
# What a finished run reports

The conductor turns to the last checkpoint only when all runners are gone, the aggregator has ended
and the saver has stopped (`Run.Still`).  From then on nothing can happen but the step of the
conductor and calls to stop that nobody hears.

So at the end of a run its records cannot differ any more: the events have all been taken, every
runner has published what it announced, and it has launched the attempts that it counted.
-/

namespace JobGraph

/-- The phases of the conductor that come after it has waited for all others. -/
def ConductorPhase.isLast : ConductorPhase → Bool
  | .settling | .collecting => false
  | .finalizing | .done _ => true

namespace Run

variable {graph : Graph} {seeds : KeyMap Seed} {first run next : Run} {step : Step}
  {steps : List Step}

/-! ## Nobody is left but the conductor -/

/-- All runners are gone, the aggregator has ended and the saver has stopped. -/
structure Still (run : Run) : Prop where
  quiet : run.isQuiet = true
  ended : run.aggregator.phase = .ended
  stopped : run.saver = .stopped

namespace Still

theorem gone (still : run.Still) {name : String} {runner : Runner}
    (found : run.find? name = some runner) : runner.phase = .gone := by
  by_contra here
  cases name_of_find? found
  cases still.quiet.symm.trans (isQuiet_of_found found here)

/-- Only the conductor goes on, and calls to stop come too late for everybody. -/
theorem change_cases (still : run.Still) (change : run.Change step next) :
    (step = .cancel ∧ next = { run with scene := { run.scene with cancelled := true } }) ∨
      ∃ accepted, step = .conductor accepted ∧ run.conductorStep? accepted = some next := by
  cases change with
  | act found act => exact absurd (still.gone found) act.not_gone
  | line found phase => cases phase.symm.trans (still.gone found)
  | cancel => exact Or.inl ⟨rfl, rfl⟩
  | aggregate taken =>
      have ended := still.ended
      rcases Aggregator.step?_cases taken with ⟨_, _, going, _⟩ | ⟨_, draining, _⟩ | ⟨_, serving, _⟩
      · exact absurd ended going
      · cases draining.symm.trans ended
      · cases serving.symm.trans ended
  | aside _ _ _ aside taken =>
      cases step with
      | tick => simp only [step?, still.stopped, reduceCtorEq, if_false] at taken
      | saver accepted => simp only [step?, saverStep?, still.stopped, reduceCtorEq] at taken
      | conductor accepted => exact Or.inr ⟨accepted, rfl, taken⟩
      | runner | overtaken | line | ended | rested | cancel | aggregator => exact absurd aside id

theorem finalize (still : run.Still) (accepted : Bool) : (run.finalize accepted).Still := by
  rw [finalize_eq]
  exact ⟨still.quiet, still.ended, still.stopped⟩

end Still

/-- Nobody but the conductor goes on with the end of a run. -/
theorem Change.conductor_cases (change : run.Change step next) :
    (next.conductor = run.conductor ∧ next.keeps = run.keeps) ∨
      ∃ accepted, step = .conductor accepted ∧ run.conductorStep? accepted = some next := by
  cases change with
  | act | line | cancel | aggregate => exact Or.inl ⟨rfl, rfl⟩
  | aside _ _ _ aside taken =>
      rcases aside_cases aside taken with ⟨_, rfl⟩ | ⟨_, _, _, _, rfl⟩ | conducted
      · exact Or.inl ⟨rfl, rfl⟩
      · exact Or.inl ⟨rfl, rfl⟩
      · exact Or.inr conducted

/-- The conductor comes to the last checkpoint only when all others are through. -/
def Concludes (run : Run) : Prop := run.conductor.isLast = true → run.Still

namespace Concludes

theorem start {limit : Nat} {store : Store} {cancelled keeps saves : Bool}
    {slot : Option Snapshot} :
    Concludes (start graph limit seeds store cancelled keeps saves slot) :=
  fun isLast => by cases isLast

theorem change (concludes : Concludes run) (change : run.Change step next) : Concludes next := by
  intro isLast
  by_cases before : run.conductor.isLast = true
  · have still := concludes before
    rcases still.change_cases change with ⟨_, rfl⟩ | ⟨accepted, _, stepped⟩
    · exact ⟨still.quiet, still.ended, still.stopped⟩
    · rcases conductorStep?_cases stepped with ⟨phase, _⟩ | ⟨phase, _⟩ | ⟨_, rfl⟩
      · rw [phase] at before
        cases before
      · rw [phase] at before
        cases before
      · exact still.finalize accepted
  · rcases change.conductor_cases with ⟨same, _⟩ | ⟨accepted, _, stepped⟩
    · exact absurd (same ▸ isLast) before
    · rcases conductorStep?_cases stepped with ⟨_, _, rfl⟩ | ⟨_, ⟨quiet, ended, stopped⟩, rfl⟩ |
        ⟨phase, _⟩
      · cases isLast
      · exact ⟨quiet, ended, stopped⟩
      · rw [phase] at before
        exact absurd rfl before

theorem steps? (concludes : Concludes first) (taken : first.steps? steps = some run) :
    Concludes run :=
  steps?_invariant taken concludes fun concludes change => concludes.change change

end Concludes

/-! ## The last step of the conductor -/

/-- Among the steps is the last one of the conductor, taken by the run `before`; what it does to the
checkpoint takes effect if it is accepted. -/
def Finalizes (first : Run) (steps : List Step) (before : Run) (accepted : Bool) : Prop :=
  ∃ front back, steps = front ++ .conductor accepted :: back ∧
    first.steps? front = some before ∧ before.conductor = .finalizing

theorem Finalizes.append {before : Run} {accepted : Bool} (finalizes : first.Finalizes steps before
    accepted) (more : List Step) : first.Finalizes (steps ++ more) before accepted := by
  obtain ⟨front, back, rfl, reached, phase⟩ := finalizes
  exact ⟨front, back ++ more, by rw [List.append_assoc, List.cons_append], reached, phase⟩

@[simp]
theorem finalize_conductor (run : Run) (accepted : Bool) :
    (run.finalize accepted).conductor = .done (if run.keeps && accepted then
      some (FinalCheckpoint.ofStates run.aggregator.states) else none) := by
  cases keeps : run.keeps with
  | false => simp only [finalize, keeps, Bool.not_false, if_true, Bool.false_and,
      Bool.false_eq_true, if_false]
  | true =>
      simp only [finalize, keeps, Bool.not_true, Bool.false_eq_true, if_false, Bool.true_and]
      cases FinalCheckpoint.ofStates run.aggregator.states <;> rfl

/-- A run that is finished was finished by one step, after which nothing but calls to stop came. -/
theorem exists_finalizes (concludes : Concludes first) (early : first.conductor = .settling)
    (taken : first.steps? steps = some run) {final : Option FinalCheckpoint}
    (finished : run.conductor = .done final) :
    ∃ before accepted told, first.Finalizes steps before accepted ∧
      run = { before.finalize accepted with scene := { before.scene with cancelled := told } } := by
  induction steps using List.reverseRecOn generalizing run with
  | nil =>
      cases taken
      cases early.symm.trans finished
  | append_singleton steps step inductionHypothesis =>
      obtain ⟨middle, reached, stepped⟩ := exists_of_steps?_concat taken
      have change := change_of_step? stepped
      rcases change.conductor_cases with ⟨same, _⟩ | ⟨accepted, rfl, conducted⟩
      · have still : middle.Still := concludes.steps? reached (by rw [← same, finished]; rfl)
        obtain ⟨before, accepted, told, finalizes, rfl⟩ :=
          inductionHypothesis reached (same.symm.trans finished)
        rcases still.change_cases change with ⟨rfl, rfl⟩ | ⟨_, _, again⟩
        · exact ⟨before, accepted, true, finalizes.append _, rfl⟩
        · simp [conductorStep?] at again
      · rcases conductorStep?_cases conducted with ⟨_, _, rfl⟩ | ⟨_, _, rfl⟩ | ⟨phase, rfl⟩
        · cases finished
        · cases finished
        · refine ⟨middle, accepted, middle.scene.cancelled, ⟨steps, [], rfl, reached, phase⟩, ?_⟩
          rw [finalize_eq]

/-! ## The records at the end -/

private theorem keys_outcomes (runners : List Runner) :
    (runners.filterMap fun runner =>
        runner.outcome?.map fun outcome => (runner.name, outcome)).map Prod.fst =
      (runners.filter fun runner => runner.outcome?.isSome).map Runner.name := by
  induction runners with
  | nil => rfl
  | cons runner rest inductionHypothesis =>
      cases ended : runner.outcome? <;> simp [ended, inductionHypothesis]

/-- The outcomes tell of each runner how it ended, if it was not stopped. -/
theorem find?_outcomes (distinct : (run.runners.map Runner.name).Nodup) {name : String}
    {runner : Runner} (found : run.find? name = some runner) :
    run.outcomes.find? name = runner.outcome? := by
  have member := mem_of_find? found
  cases name_of_find? found
  cases ended : runner.outcome? with
  | some outcome =>
      apply KeyMap.find?_ofList_of_mem
      · rw [keys_outcomes]
        exact distinct.sublist (List.filter_sublist.map Runner.name)
      · exact List.mem_filterMap.2 ⟨runner, member, by rw [ended, Option.map_some]⟩
  | none =>
      apply KeyMap.find?_ofList_of_absent
      rw [keys_outcomes]
      intro listed
      obtain ⟨other, otherMember, same⟩ := List.mem_map.1 listed
      obtain ⟨inside, isSome⟩ := List.mem_filter.1 otherMember
      cases List.inj_on_of_nodup_map distinct inside member same
      rw [ended] at isSome
      cases isSome

theorem find?_outcomes_of_unknown {name : String} (unknown : name ∉ run.runners.map Runner.name) :
    run.outcomes.find? name = none := by
  apply KeyMap.find?_ofList_of_absent
  rw [keys_outcomes]
  intro listed
  exact unknown ((List.filter_sublist.map Runner.name).subset listed)

/-- The published map, the outcomes and the runners tell the same of the tasks of a graph. -/
structure Agree (graph : Graph) (run : Run) : Prop where
  names : run.runners.map Runner.name = graph.names
  /-- Every task has come to an end, and the map has it there and nowhere else. -/
  ended : ∀ name runner, run.find? name = some runner → runner.state.isTerminal = true ∧
    ∀ state, name ∈ run.aggregator.states.names state ↔ state = runner.state
  /-- The outcomes have every task that was not stopped, with the attempts that were launched. -/
  outcome : ∀ name runner, run.find? name = some runner → run.outcomes.find? name =
    if runner.state = .aborted then none
    else some ⟨runner.state, (run.callsOf name).length⟩
  /-- No record knows of other tasks. -/
  unknown : ∀ name, name ∉ graph.names →
    (∀ state, name ∉ run.aggregator.states.names state) ∧ run.outcomes.find? name = none
  exitCode : run.exitCode = run.runners.countP fun runner => runner.state ∈ TaskState.failures

theorem Orderly.wasStopped_iff (orderly : Orderly graph seeds run)
    (restores : seeds.RestoresCleared) {name : String} {runner : Runner}
    (found : run.find? name = some runner) (gone : runner.phase = .gone) :
    runner.wasStopped = true ↔ runner.state = .aborted := by
  have fits := orderly.fits found
  simp only [Runner.Fits, gone] at fits
  cases seed : runner.seed with
  | restored state =>
      have same : state = runner.state := Seed.restored.inj (seed.symm.trans (fits.1 ⟨state, seed⟩))
      have clears : state.Clears := restores.clears ((orderly.staffed found).2.symm.trans seed)
      rw [Runner.wasStopped, seed, ← same]
      rcases clears with rfl | rfl <;> decide
  | fresh | skip => rw [Runner.wasStopped, seed, decide_eq_true_iff]

/-- The published map places every task where its runner is. -/
theorem Still.places (still : run.Still) (orderly : Orderly graph seeds run)
    (heard : Heard graph run) {name : String} {runner : Runner}
    (found : run.find? name = some runner) (state : TaskState) :
    name ∈ run.aggregator.states.names state ↔ state = runner.state := by
  have all : run.aggregator.taken = run.scene.events.length := heard.whole still.ended
  have placed := orderly.places state name
  have told : History.stateOf run.scene.events name = runner.state := by
    rw [orderly.logged found, Runner.logged, still.gone found]
  rw [all, List.take_length, told] at placed
  rw [placed, eq_comm (a := state)]
  exact and_iff_right (orderly.name_mem found)

theorem Still.agree (still : run.Still) (sound : graph.Sound) (restores : seeds.RestoresCleared)
    (orderly : Orderly graph seeds run) (heard : Heard graph run) (narrated : Narrated run) :
    Agree graph run := by
  have distinct := orderly.distinct sound
  refine ⟨orderly.names, ?_, ?_, ?_, ?_⟩
  · intro name runner found
    have terminal := orderly.isTerminal_of_gone restores found (still.gone found)
    exact ⟨terminal, still.places orderly heard found⟩
  · intro name runner found
    have calls : (run.callsOf name).length = runner.attempts := by
      rw [(narrated name runner found).calls]
      simp [Runner.calls, still.gone found, Phase.isEntering, Phase.isStarting]
    have stopped := orderly.wasStopped_iff restores found (still.gone found)
    rw [find?_outcomes distinct found, Runner.outcome?, calls]
    simp only [stopped]
  · intro name unlisted
    refine ⟨?_, find?_outcomes_of_unknown (orderly.names.symm ▸ unlisted)⟩
    intro state placed
    exact unlisted ((orderly.places state name).1 placed).1
  · have placed := orderly.places
    rw [exitCode, placed.countIn sound.distinct (by decide), ← orderly.names, List.countP_map]
    apply List.countP_congr
    intro runner member
    have found : run.find? runner.name = some runner := find?_of_mem distinct member
    have here := (still.places orderly heard found runner.state).2 rfl
    rw [Function.comp_apply, ((placed _ _).1 here).2]

theorem Still.hasFailures_iff (still : run.Still) (sound : graph.Sound)
    (orderly : Orderly graph seeds run) (heard : Heard graph run) :
    run.aggregator.states.hasFailures = true ↔
      ∃ runner ∈ run.runners, runner.state ∈ [TaskState.failed, .defaulted, .aborted] := by
  have distinct := orderly.distinct sound
  rw [StateMap.hasFailures_iff]
  constructor
  · rintro ⟨state, bad, name, placed⟩
    have listed : name ∈ graph.names := ((orderly.places state name).1 placed).1
    obtain ⟨runner, found⟩ := orderly.exists_runner listed
    have here : state = runner.state := (still.places orderly heard found state).1 placed
    exact ⟨runner, mem_of_find? found, here ▸ bad⟩
  · rintro ⟨runner, member, bad⟩
    have found : run.find? runner.name = some runner := find?_of_mem distinct member
    have placed := (still.places orderly heard found runner.state).2 rfl
    exact ⟨runner.state, bad, runner.name, placed⟩

theorem keeps_of_steps? (taken : first.steps? steps = some run) : run.keeps = first.keeps := by
  refine steps?_invariant (P := fun run => run.keeps = first.keeps) taken rfl ?_
  intro run next step same change
  rcases change.conductor_cases with ⟨_, kept⟩ | ⟨accepted, _, stepped⟩
  · exact kept.trans same
  · rcases conductorStep?_cases stepped with ⟨_, _, rfl⟩ | ⟨_, _, rfl⟩ | ⟨_, rfl⟩
    · exact same
    · exact same
    · rw [finalize_eq]
      exact same

/-- The invariants of a run that say what its records have to do with each other. -/
structure Kept (graph : Graph) (seeds : KeyMap Seed) (run : Run) : Prop where
  orderly : Orderly graph seeds run
  attended : Attended run
  heard : Heard graph run

theorem Kept.of_steps? (sound : graph.Sound) {limit : Nat} {store : Store}
    {cancelled keeps saves : Bool} {slot : Option Snapshot}
    (taken : (start graph limit seeds store cancelled keeps saves slot).steps? steps = some run) :
    Kept graph seeds run := by
  refine steps?_invariant taken ⟨Orderly.start, Attended.start, Heard.start⟩ ?_
  rintro run next step ⟨orderly, attended, heard⟩ change
  exact ⟨orderly.change change, attended.change orderly sound change,
    heard.change orderly sound attended change⟩

theorem Narrated.of_steps? (restores : seeds.RestoresCleared) {limit : Nat} {store : Store}
    {cancelled keeps saves : Bool} {slot : Option Snapshot}
    (taken : (Run.start graph limit seeds store cancelled keeps saves slot).steps? steps =
      some run) :
    Narrated run :=
  Orderly.invariant taken Narrated.start fun orderly narrated change =>
    narrated.change orderly restores change

/-- When a run is finished, whatever was started from and whoever was stopped, its records agree on
how each task ended, and a checkpoint is written if some task did not end well. -/
theorem finished_records_agree {tasks : List Task} (accepted : Graph.ofTasks tasks = .ok graph)
    (restores : seeds.RestoresCleared) {limit : Nat} {store : Store} {cancelled keeps saves : Bool}
    {slot : Option Snapshot}
    (course : (start graph limit seeds store cancelled keeps saves slot).steps? steps = some run)
    {final : Option FinalCheckpoint} (finished : run.conductor = .done final) :
    Agree graph run ∧ ∃ before worked,
      (start graph limit seeds store cancelled keeps saves slot).Finalizes steps before worked ∧
      final = if keeps && worked then
          some (if ∃ runner ∈ run.runners, runner.state ∈ [TaskState.failed, .defaulted, .aborted]
            then .written else .cleared)
        else none := by
  have sound := Graph.sound_of_ofTasks accepted
  have kept : Kept graph seeds run := Kept.of_steps? sound course
  have still : run.Still := Concludes.start.steps? course (by rw [finished]; rfl)
  have agree : Agree graph run := still.agree sound restores kept.orderly kept.heard
    (Narrated.of_steps? restores course)
  have failures := still.hasFailures_iff sound kept.orderly kept.heard
  obtain ⟨before, worked, told, finalizes, same⟩ :=
    exists_finalizes Concludes.start rfl course finished
  refine ⟨agree, before, worked, finalizes, ?_⟩
  obtain ⟨front, back, _, reached, _⟩ := finalizes
  have keeper : before.keeps = keeps := keeps_of_steps? reached
  have states : run.aggregator.states = before.aggregator.states := by
    rw [same, finalize_eq]
  have conducted : run.conductor = (before.finalize worked).conductor := by rw [same]
  rw [finished, finalize_conductor, keeper, ← states] at conducted
  rw [ConductorPhase.done.inj conducted, FinalCheckpoint.ofStates]
  simp only [failures]

theorem attended_records_agree :
    ∃ run, (start Graph.rivals 0 .empty .empty false true false none).steps?
        (attendedSteps ++ [.conductor true, .conductor true]) = some run ∧
      run.conductor = .done (some .written) ∧ run.exitCode = 1 ∧ Agree Graph.rivals run ∧
      some FinalCheckpoint.written = some (if ∃ runner ∈ run.runners,
        runner.state ∈ [TaskState.failed, .defaulted, .aborted] then .written else .cleared) := by
  have restores : KeyMap.RestoresCleared .empty := fun _ _ known => by cases known
  obtain ⟨run, reached, finished, failed⟩ :
      ∃ run, (start Graph.rivals 0 .empty .empty false true false none).steps?
          (attendedSteps ++ [.conductor true, .conductor true]) = some run ∧
        run.conductor = .done (some .written) ∧ run.exitCode = 1 := ⟨_, rfl, rfl, rfl⟩
  obtain ⟨agree, _, worked, _, final⟩ :=
    finished_records_agree Graph.rivals_accepted restores reached finished
  refine ⟨run, reached, finished, failed, agree, ?_⟩
  cases worked with
  | true => exact final
  | false => cases final

end Run

end JobGraph
