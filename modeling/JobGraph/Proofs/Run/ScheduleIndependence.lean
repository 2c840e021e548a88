import JobGraph.Proofs.Run.Attempts

/-!
# The end of a run does not depend on its schedule

When every task of a run that nobody stops has ended, the published map is what the forecast says:
neither the limit of the gate, nor the order of the steps, nor what the attempts write has a say in
it.
-/

namespace JobGraph.Run

variable {graph : Graph} {seeds : KeyMap Seed} {kinds : String → Nat → AttemptKind}
  {run : Run} {steps : List Step}

/-- The steps of a run that nobody stops, in which attempts end as `kinds` tells. -/
def Undisturbed (kinds : String → Nat → AttemptKind) (run : Run) : Step → Prop
  | .cancel => False
  | .ended name result =>
    ∀ runner, run.find? name = some runner → result.kind = kinds name runner.attempts
  | _ => True

theorem Undisturbed.follows {step : Step} (undisturbed : run.Undisturbed kinds step) :
    run.Follows kinds step := by
  cases step with
  | ended name result => exact fun runner found => Or.inl (undisturbed runner found)
  | _ => trivial

theorem Undisturbed.going {next : Run} {step : Step} (undisturbed : run.Undisturbed kinds step)
    (change : run.Change step next) (going : run.scene.cancelled = false) :
    next.scene.cancelled = false := by
  cases change with
  | act found act => exact act.cancelled.trans going
  | line | aggregate => exact going
  | cancel => exact absurd undisturbed id
  | aside runners scene => exact scene ▸ going

theorem going_of_undisturbed {first : Run} (going : first.scene.cancelled = false)
    (course : Course (Undisturbed kinds) first steps run) : run.scene.cancelled = false :=
  course.invariant (P := fun run => run.scene.cancelled = false) going
    fun going undisturbed change => undisturbed.going change going

/-- A settled map of a run that goes on undisturbed is the forecast. -/
theorem Regular.stateOf?_eq_forecast (regular : Regular graph seeds kinds run) (sound : graph.Sound)
    (going : run.scene.cancelled = false) (settled : run.aggregator.states.isSettled = true)
    (name : String) :
    run.aggregator.states.stateOf? name = (graph.forecast seeds kinds).find? name := by
  have places := regular.orderly.places
  by_cases listed : name ∈ graph.names
  · have published := places.stateOf? listed
    have ended := (places.isSettled_iff sound.distinct).1 settled name listed
    have listedRunner : name ∈ run.runners.map Runner.name := regular.orderly.names.symm ▸ listed
    obtain ⟨runner, found⟩ := find?_of_mem_names listedRunner
    have claimed := regular.orderly.claimed_of_published found published ended
    rw [published, ← claimed]
    rw [← claimed] at ended
    exact (regular.foretold sound name listed runner found ended (Or.inl going)).symm
  · rw [places.stateOf?_of_unlisted listed, Graph.find?_forecast_of_unknown listed]

/-- Every settled run that nobody stops ends as the forecast says, whatever its limit and its
schedule; so does its exit code, the number of tasks that failed or were given up. -/
theorem settled_run_eq_forecast {tasks : List Task} (accepted : Graph.ofTasks tasks = .ok graph)
    (restores : seeds.RestoresCleared) {limit : Nat} {store : Store} {keeps saves : Bool}
    {slot : Option Snapshot}
    (course : Course (Undisturbed kinds) (start graph limit seeds store false keeps saves slot)
      steps run)
    (settled : run.aggregator.states.isSettled = true) :
    (∀ name, run.aggregator.states.stateOf? name = (graph.forecast seeds kinds).find? name) ∧
      run.exitCode = graph.names.countP fun name =>
        (graph.forecast seeds kinds).find? name ∈ [some .failed, some .defaulted] := by
  have sound := Graph.sound_of_ofTasks accepted
  have regular := Regular.start.course sound restores Undisturbed.follows course
  have going := going_of_undisturbed rfl course
  have told := regular.stateOf?_eq_forecast sound going settled
  refine ⟨told, ?_⟩
  have places := regular.orderly.places
  rw [exitCode, places.countIn sound.distinct (by decide)]
  apply List.countP_congr
  intro name listed
  rw [← told name, places.stateOf? listed]
  simp [TaskState.failures]

/-- The steps of two tasks in a row of which the first fails. -/
def failingPairSteps : List Step :=
  List.replicate 9 (.runner "first") ++ [.ended "first" (.report ⟨true, false, []⟩)] ++
    List.replicate 4 (.runner "first") ++ List.replicate 7 (.runner "second") ++
      List.replicate 5 .aggregator

theorem failing_pair_ends_as_forecast :
    ∃ run, (start Graph.pair 1 .empty .empty false false false none).steps? failingPairSteps =
      some run ∧ run.aggregator.states.isSettled = true ∧
        run.aggregator.states.stateOf? "second" = some .defaulted ∧ run.exitCode = 2 := by
  obtain ⟨run, reached, settled⟩ :
      ∃ run, (start Graph.pair 1 .empty .empty false false false none).steps? failingPairSteps =
        some run ∧ run.aggregator.states.isSettled = true := ⟨_, rfl, rfl⟩
  have restores : KeyMap.RestoresCleared .empty := fun _ _ known => by cases known
  have undisturbed : ∀ step ∈ failingPairSteps, ∀ run : Run,
      run.Undisturbed (fun _ _ => .failure) step := by
    intro step member run
    simp only [failingPairSteps, List.mem_append, List.mem_replicate, List.mem_singleton] at member
    rcases member with (((⟨_, rfl⟩ | rfl) | ⟨_, rfl⟩) | ⟨_, rfl⟩) | ⟨_, rfl⟩
    · trivial
    · exact fun _ _ => rfl
    · trivial
    · trivial
    · trivial
  obtain ⟨told, code⟩ := settled_run_eq_forecast Graph.pair_accepted restores
    (Course.of_steps? reached undisturbed) settled
  have forecast : (Graph.pair.forecast .empty fun _ _ => .failure).find? "second" =
      some .defaulted := by cbv
  have count : (Graph.pair.names.countP fun name =>
      (Graph.pair.forecast .empty fun _ _ => .failure).find? name ∈
        [some .failed, some .defaulted]) = 2 := by cbv
  exact ⟨run, reached, settled, (told "second").trans forecast, code.trans count⟩

end JobGraph.Run
