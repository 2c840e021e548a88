import JobGraph.Proofs.Run.Progress

/-!
# Resuming a run

Whatever map a run has published, a second run can go on from it: what was completed or skipped is
taken over, and all other tasks start anew.  What is taken over is what the forecast says of those
tasks, so the forecast for the second run is the one for a run that was never interrupted.
-/

namespace JobGraph

/-! ## How tasks start out -/

/-- How a task that a selection leaves out starts out. -/
def Seed.leftOut : Option Seed → Seed
  | some (.restored state) => .restored state
  | _ => .skip

theorem Seed.eq_of_leftOut {seed : Option Seed} {state : TaskState}
    (restored : leftOut seed = .restored state) : seed = some (.restored state) := by
  rcases seed with _ | _ | _ | known
  · cases restored
  · cases restored
  · cases restored
  · cases restored
    rfl

/-- What was completed or skipped is taken over, and everything else starts anew. -/
theorem Seed.ofSaved_cases (saved : Option TaskState) :
    (∃ state, saved = some state ∧ state.Clears ∧ ofSaved saved = .restored state) ∨
      ofSaved saved = .fresh true := by
  rcases saved with _ | state
  · exact Or.inr rfl
  · cases state with
    | completed => exact Or.inl ⟨_, rfl, Or.inl rfl, rfl⟩
    | skip => exact Or.inl ⟨_, rfl, Or.inr rfl, rfl⟩
    | init | pending | running | failed | defaulted | aborted => exact Or.inr rfl

theorem Seed.ofSaved_of_clears {state : TaskState} (clears : state.Clears) :
    ofSaved (some state) = .restored state := by
  rcases clears with rfl | rfl
  · rfl
  · rfl

namespace KeyMap

variable {seeds : KeyMap Seed}

private theorem find?_leaveOut (seeds : KeyMap Seed) (left name : String) :
    (match seeds.find? left with
      | some (.restored _) => seeds
      | _ => seeds.insert left .skip).find? name =
      if name = left then some (Seed.leftOut (seeds.find? left)) else seeds.find? name := by
  by_cases same : name = left
  · rw [if_pos same, same]
    split
    next state known => rw [known, Seed.leftOut]
    next notRestored =>
      have skip : Seed.leftOut (seeds.find? left) = .skip := by
        rw [Seed.leftOut]
        exact notRestored
      rw [find?_insert, if_pos rfl, skip]
  · rw [if_neg same]
    split
    next => rfl
    next => rw [find?_insert, if_neg same]

private theorem find?_foldl_leaveOut (names : List String) (name : String) :
    ∀ seeds : KeyMap Seed,
      (names.foldl (fun seeds left => match seeds.find? left with
        | some (.restored _) => seeds
        | _ => seeds.insert left .skip) seeds).find? name =
        if name ∈ names then some (Seed.leftOut (seeds.find? name)) else seeds.find? name := by
  induction names with
  | nil =>
      intro seeds
      rfl
  | cons left rest inductionHypothesis =>
      intro seeds
      rw [List.foldl_cons, inductionHypothesis, find?_leaveOut]
      by_cases same : name = left
      · have twice : Seed.leftOut (some (Seed.leftOut (seeds.find? left))) =
            Seed.leftOut (seeds.find? left) := by
          cases seeds.find? left with
          | none => rfl
          | some seed => cases seed <;> rfl
        simp only [same, if_true, twice, ite_self, List.mem_cons, true_or]
      · simp only [same, if_false, List.mem_cons, false_or]

theorem find?_overlaySkipped (seeds : KeyMap Seed) (skipped : NameSet) (name : String) :
    (seeds.overlaySkipped skipped).find? name =
      if name ∈ skipped then some (Seed.leftOut (seeds.find? name)) else seeds.find? name :=
  find?_foldl_leaveOut skipped.toList name seeds

/-- Seeds that go by what was saved take over what was completed or skipped there. -/
theorem find?_eq_restored_iff {names : List String} {saved : String → Option TaskState}
    (goesBy : ∀ name, seeds.find? name =
      if name ∈ names then some (Seed.ofSaved (saved name)) else none)
    {name : String} {state : TaskState} :
    seeds.find? name = some (.restored state) ↔
      name ∈ names ∧ saved name = some state ∧ state.Clears := by
  rw [goesBy name]
  constructor
  · intro known
    split at known
    next listed =>
      rcases Seed.ofSaved_cases (saved name) with ⟨other, same, clears, restored⟩ | fresh
      · cases restored.symm.trans (Option.some.inj known)
        exact ⟨listed, same, clears⟩
      · cases fresh.symm.trans (Option.some.inj known)
    next => cases known
  · rintro ⟨listed, same, clears⟩
    rw [if_pos listed, same, Seed.ofSaved_of_clears clears]

/-- Skipping tasks takes nothing over. -/
theorem RestoresCleared.overlaySkipped (restores : seeds.RestoresCleared) (skipped : NameSet) :
    (seeds.overlaySkipped skipped).RestoresCleared := by
  intro name state known
  apply restores name state
  rw [find?_overlaySkipped] at known
  split at known
  next => exact Seed.eq_of_leftOut (Option.some.inj known)
  next => exact known

end KeyMap

/-- A snapshot of a map that places the tasks of a graph fits that graph, and the plan for it goes
by the states of the map. -/
theorem Snapshot.exists_plan {states : StateMap} {graph : Graph} {place : String → TaskState}
    (places : states.Places graph.names place) (distinct : graph.names.Nodup) (store : Store) :
    ∃ plan, Snapshot.plan ⟨states, store⟩ graph = .ok plan ∧ plan.store = store ∧
      ∀ name, plan.seeds.find? name =
        if name ∈ graph.names then some (Seed.ofSaved (states.stateOf? name)) else none := by
  have saved := places.allNames
  have size : (NameSet.ofList graph.names).size = graph.names.length :=
    NameSet.size_eq_length distinct fun name => NameSet.mem_ofList
  have total : states.total = states.allNames.size := by
    rw [places.total distinct, saved, size]
  refine ⟨_, if_pos ⟨saved, total⟩, rfl, ?_⟩
  intro name
  exact KeyMap.find?_ofList_map _ graph.names name

namespace Run

variable {graph : Graph} {seeds resumed : KeyMap Seed} {kinds : String → Nat → AttemptKind}
  {run next : Run} {step : Step}

/-! ## The forecast for a resumed run -/

/-- Every task is taken over in the state that the forecast says, or starts out as before. -/
def Resumes (graph : Graph) (kinds : String → Nat → AttemptKind) (seeds resumed : KeyMap Seed) :
    Prop :=
  ∀ name ∈ graph.names,
    (∃ state, seedOf resumed name = .restored state ∧
      (graph.forecast seeds kinds).find? name = some state) ∨
    (seedOf resumed name = .skip ∧ seedOf seeds name = .skip) ∨
    ∃ isRestart wasRestart, seedOf resumed name = .fresh isRestart ∧
      seedOf seeds name = .fresh wasRestart

theorem Resumes.forecast (resumes : Resumes graph kinds seeds resumed) (sound : graph.Sound) :
    ∀ name ∈ graph.names,
      (graph.forecast resumed kinds).find? name = (graph.forecast seeds kinds).find? name := by
  refine sound.induct (P := fun name =>
    (graph.forecast resumed kinds).find? name = (graph.forecast seeds kinds).find? name) ?_
  intro task member inductionHypothesis
  rw [Graph.forecast_eq sound member]
  rcases resumes task.name (List.mem_map_of_mem member) with ⟨state, restored, told⟩ | alike
  · rw [told, Task.foretell_of_restored restored]
  · rw [Graph.forecast_eq sound member, Task.foretell_congr inductionHypothesis]
    rcases alike with ⟨now, before⟩ | ⟨isRestart, wasRestart, now, before⟩
    · simp only [Task.foretell, now, before]
    · simp only [Task.foretell, now, before]

theorem seedOf_overlaySkipped (seeds : KeyMap Seed) (skipped : NameSet) (name : String) :
    seedOf (seeds.overlaySkipped skipped) name =
      if name ∈ skipped then Seed.leftOut (seeds.find? name) else seedOf seeds name := by
  unfold seedOf
  rw [KeyMap.find?_overlaySkipped]
  split <;> rfl

/-- What a run has published of a task that was completed or skipped is what the forecast says. -/
theorem Regular.foretold_of_published (regular : Regular graph seeds kinds run)
    (sound : graph.Sound) {name : String} {state : TaskState} (listed : name ∈ graph.names)
    (published : run.aggregator.states.stateOf? name = some state) (clears : state.Clears) :
    (graph.forecast seeds kinds).find? name = some state := by
  obtain ⟨runner, found⟩ := regular.orderly.exists_runner listed
  have ended := clears.isTerminal
  have claimed := regular.orderly.claimed_of_published found published ended
  rw [← claimed] at ended clears ⊢
  exact regular.foretold sound name listed runner found ended (Or.inr clears)

/-- The seeds of a second run that goes by the map which a first one has published. -/
def Replans (graph : Graph) (run : Run) (plan : RestorePlan) : Prop :=
  ∀ name, plan.seeds.find? name =
    if name ∈ graph.names then some (Seed.ofSaved (run.aggregator.states.stateOf? name)) else none

theorem Replans.restoresCleared {plan : RestorePlan} (replans : Replans graph run plan) :
    plan.seeds.RestoresCleared :=
  fun _ _ known => ((KeyMap.find?_eq_restored_iff replans).1 known).2.2

theorem Replans.resumes {plan : RestorePlan} {skipped : NameSet} (replans : Replans graph run plan)
    (regular : Regular graph (KeyMap.empty.overlaySkipped skipped) kinds run)
    (sound : graph.Sound) :
    Resumes graph kinds (KeyMap.empty.overlaySkipped skipped)
      (plan.seeds.overlaySkipped skipped) := by
  intro name listed
  have planned := (replans name).trans (if_pos listed)
  have before : seedOf (KeyMap.empty.overlaySkipped skipped) name =
      if name ∈ skipped then .skip else .fresh false := seedOf_overlaySkipped .empty skipped name
  have now := seedOf_overlaySkipped plan.seeds skipped name
  rcases Seed.ofSaved_cases (run.aggregator.states.stateOf? name) with
    ⟨state, published, clears, restored⟩ | fresh
  · left
    refine ⟨state, ?_, regular.foretold_of_published sound listed published clears⟩
    rw [now, seedOf, planned, restored]
    split <;> rfl
  · right
    rw [now, before, seedOf, planned, fresh]
    by_cases skip : name ∈ skipped
    · rw [if_pos skip, if_pos skip]
      exact Or.inl ⟨rfl, rfl⟩
    · rw [if_neg skip, if_neg skip]
      exact Or.inr ⟨true, false, rfl, rfl⟩

/-! ## What is taken over is not run again -/

/-- Only tasks that take part in the run are attempted. -/
def LaunchesFresh (seeds : KeyMap Seed) (run : Run) : Prop :=
  ∀ request ∈ run.scene.launches, ∃ isRestart, seedOf seeds request.name = .fresh isRestart

theorem LaunchesFresh.change (launches : LaunchesFresh seeds run)
    (orderly : Orderly graph seeds run) (change : run.Change step next) :
    LaunchesFresh seeds next := by
  cases change with
  | act found act =>
      rename_i before runner scene
      cases act with
      | launch phase =>
          intro request member
          rcases List.mem_append.1 member with earlier | last
          · exact launches request earlier
          · cases List.mem_singleton.1 last
            have fits := orderly.fits found
            simp only [Runner.Fits, phase] at fits
            obtain ⟨isRestart, fresh⟩ := fits.1
            exact ⟨isRestart, (orderly.staffed found).2.symm.trans fresh⟩
      | _ => exact launches
  | line | cancel | aggregate => exact launches
  | aside runners scene =>
      intro request member
      exact launches request (scene ▸ member)

/-! ## Two runs -/

/-- The run has started out with the seeds, and nobody has stopped it. -/
def Uninterrupted (graph : Graph) (seeds : KeyMap Seed) (kinds : String → Nat → AttemptKind)
    (run : Run) : Prop :=
  ∃ limit store keeps saves slot steps,
    Course (Undisturbed kinds) (start graph limit seeds store false keeps saves slot) steps run

namespace Uninterrupted

theorem lively (uninterrupted : Uninterrupted graph seeds kinds run) (sound : graph.Sound)
    (restores : seeds.RestoresCleared) : Lively graph seeds kinds run := by
  obtain ⟨limit, store, keeps, saves, slot, steps, course⟩ := uninterrupted
  exact Lively.start.course sound restores course

theorem launchesFresh (uninterrupted : Uninterrupted graph seeds kinds run) :
    LaunchesFresh seeds run := by
  obtain ⟨limit, store, keeps, saves, slot, steps, course⟩ := uninterrupted
  have both : Orderly graph seeds run ∧ LaunchesFresh seeds run := by
    refine course.invariant (P := fun run => Orderly graph seeds run ∧ LaunchesFresh seeds run)
      ⟨Orderly.start, fun request member => by cases member⟩ ?_
    rintro run next step ⟨orderly, launches⟩ _ change
    exact ⟨orderly.change change, launches.change orderly change⟩
  exact both.2

end Uninterrupted

/-- Whatever map a run has published, also one that was stopped, a second run can be planned from
it.  The work of the second run comes to an end with the states in which a run without any
interruption ends, and no task that was completed or skipped for the map is attempted again. -/
theorem resumed_run_ends_alike {tasks : List Task} (accepted : Graph.ofTasks tasks = .ok graph)
    {skipped : NameSet} {limit : Nat} {store : Store} {cancelled keeps saves : Bool}
    {slot : Option Snapshot} {steps : List Step} {first : Run}
    (course : Course (Follows kinds)
      (start graph limit (KeyMap.empty.overlaySkipped skipped) store cancelled keeps saves slot)
      steps first) (saved : Store) :
    ∃ plan, Snapshot.plan ⟨first.aggregator.states, saved⟩ graph = .ok plan ∧ plan.store = saved ∧
      ∀ second, Uninterrupted graph (plan.seeds.overlaySkipped skipped) kinds second →
        second.Settles kinds ∧
        (second.aggregator.states.isSettled = true →
          ∀ whole, Uninterrupted graph (KeyMap.empty.overlaySkipped skipped) kinds whole →
            whole.aggregator.states.isSettled = true → ∀ name,
              second.aggregator.states.stateOf? name = whole.aggregator.states.stateOf? name) ∧
        ∀ request ∈ second.scene.launches, ∀ state,
          first.aggregator.states.stateOf? request.name = some state → ¬state.Clears := by
  have sound := Graph.sound_of_ofTasks accepted
  have nothing : KeyMap.RestoresCleared .empty := fun _ _ known => by cases known
  have restores := nothing.overlaySkipped skipped
  have regular := Regular.start.course sound restores (fun follows => follows) course
  obtain ⟨plan, planned, kept, replans⟩ :
      ∃ plan, Snapshot.plan ⟨first.aggregator.states, saved⟩ graph = .ok plan ∧
        plan.store = saved ∧ Replans graph first plan :=
    Snapshot.exists_plan regular.orderly.places sound.distinct saved
  have resumedRestores := replans.restoresCleared.overlaySkipped skipped
  refine ⟨plan, planned, kept, ?_⟩
  intro second uninterrupted
  have lively := uninterrupted.lively sound resumedRestores
  refine ⟨lively.settles sound resumedRestores, ?_, ?_⟩
  · intro settled whole wholeUninterrupted wholeSettled name
    have wholeLively := wholeUninterrupted.lively sound restores
    rw [lively.regular.stateOf?_eq_forecast sound lively.going settled,
      wholeLively.regular.stateOf?_eq_forecast sound wholeLively.going wholeSettled]
    by_cases listed : name ∈ graph.names
    · exact (replans.resumes regular sound).forecast sound name listed
    · rw [Graph.find?_forecast_of_unknown listed, Graph.find?_forecast_of_unknown listed]
  · intro request member state published clears
    obtain ⟨isRestart, fresh⟩ := uninterrupted.launchesFresh request member
    have listed : request.name ∈ graph.names := by
      by_contra unlisted
      rw [regular.orderly.places.stateOf?_of_unlisted unlisted] at published
      cases published
    have planned := (replans request.name).trans (if_pos listed)
    rw [seedOf_overlaySkipped, seedOf, planned, published, Seed.ofSaved_of_clears clears] at fresh
    split at fresh <;> cases fresh

/-- The steps of the first of two tasks in a row, until the map shows it completed. -/
def firstOfPairSteps : List Step :=
  List.replicate 9 (.runner "first") ++ [.ended "first" (.report ⟨false, false, []⟩)] ++
    List.replicate 4 (.runner "first") ++ List.replicate 3 .aggregator

/-- The steps of the second of two tasks in a row, until the map shows it completed. -/
def secondOfPairSteps : List Step :=
  List.replicate 10 (.runner "second") ++ [.ended "second" (.report ⟨false, false, []⟩)] ++
    List.replicate 4 (.runner "second") ++ List.replicate 4 .aggregator

theorem resumed_pair_runs_second_only :
    ∃ first plan second,
      (start Graph.pair 1 (KeyMap.empty.overlaySkipped .empty) .empty false false false none).steps?
        (firstOfPairSteps ++ [.cancel]) = some first ∧
      Snapshot.plan ⟨first.aggregator.states, .empty⟩ Graph.pair = .ok plan ∧
      (start Graph.pair 1 (plan.seeds.overlaySkipped .empty) .empty false false false none).steps?
        (List.replicate 4 (.runner "first") ++ secondOfPairSteps) = some second ∧
      second.aggregator.states.isSettled = true ∧
      second.aggregator.states.stateOf? "second" = some .completed ∧
      ∀ request ∈ second.scene.launches, request.name ≠ "first" := by
  obtain ⟨first, plan, second, whole, reached, published, planned, resumed, settled, finished,
      wholeSettled, ended⟩ :
    ∃ first plan second whole,
      (start Graph.pair 1 (KeyMap.empty.overlaySkipped .empty) .empty false false false none).steps?
        (firstOfPairSteps ++ [.cancel]) = some first ∧
      first.aggregator.states.stateOf? "first" = some .completed ∧
      Snapshot.plan ⟨first.aggregator.states, .empty⟩ Graph.pair = .ok plan ∧
      (start Graph.pair 1 (plan.seeds.overlaySkipped .empty) .empty false false false none).steps?
        (List.replicate 4 (.runner "first") ++ secondOfPairSteps) = some second ∧
      second.aggregator.states.isSettled = true ∧
      (start Graph.pair 1 (KeyMap.empty.overlaySkipped .empty) .empty false false false none).steps?
        (firstOfPairSteps ++ secondOfPairSteps) = some whole ∧
      whole.aggregator.states.isSettled = true ∧
      whole.aggregator.states.stateOf? "second" = some .completed :=
    ⟨_, _, _, _, rfl, rfl, rfl, rfl, rfl, rfl, rfl, rfl⟩
  have follows : ∀ step ∈ firstOfPairSteps ++ [.cancel], ∀ run : Run,
      run.Follows (fun _ _ => .success) step := by
    simp [firstOfPairSteps, Follows, AttemptResult.kind]
  have resumedFits : ∀ step ∈ List.replicate 4 (.runner "first") ++ secondOfPairSteps,
      ∀ run : Run, run.Undisturbed (fun _ _ => .success) step := by
    simp [secondOfPairSteps, Undisturbed, AttemptResult.kind]
  have wholeFits : ∀ step ∈ firstOfPairSteps ++ secondOfPairSteps, ∀ run : Run,
      run.Undisturbed (fun _ _ => .success) step := by
    simp [firstOfPairSteps, secondOfPairSteps, Undisturbed, AttemptResult.kind]
  obtain ⟨other, otherPlanned, _, ends⟩ := resumed_run_ends_alike Graph.pair_accepted
    (Course.of_steps? reached follows) .empty
  cases planned.symm.trans otherPlanned
  obtain ⟨_, alike, fresh⟩ :=
    ends second ⟨_, _, _, _, _, _, Course.of_steps? resumed resumedFits⟩
  have same := alike settled whole ⟨_, _, _, _, _, _, Course.of_steps? finished wholeFits⟩
    wholeSettled "second"
  refine ⟨first, plan, second, reached, planned, resumed, settled, same.trans ended, ?_⟩
  intro request member isFirst
  exact fresh request member .completed (isFirst ▸ published) (Or.inl rfl)

end Run

end JobGraph
