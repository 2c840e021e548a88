import JobGraph.Proofs.Run.Dependencies

/-!
# No task starts before its dependencies

Whenever the events of a run say that a task started to run, they said before that each of its
dependencies was completed or skipped, and they never take that back.  A runner announces that its
task starts only after it has read the end of each dependency; the event of that end was sent before
the end could be read, and so it stands before the event of the start.
-/

namespace JobGraph

namespace History

/-- The events end a task at this position, completed or skipped, and nowhere else. -/
def ClearedAt (events : List Event) (name : String) (position : Nat) : Prop :=
  ∃ source target, events[position]? = some (.moved ⟨name, source, target⟩) ∧ target.Clears ∧
    ∀ (other : Nat) (transition : Transition), events[other]? = some (.moved transition) →
      transition.task = name → transition.target.isTerminal = true → other = position

/-- A task that the events say has ended well was ended at one position of them. -/
theorem exists_clearedAt {names : List String} {events : List Event} (sound : Sound names events)
    {name : String} {length : Nat} (clears : (stateOf (events.take length) name).Clears) :
    ∃ position < length, ClearedAt events name position := by
  have left : stateOf (events.take length) name ≠ .init := by
    intro same
    rw [same] at clears
    rcases clears with completed | skipped
    · cases completed
    · cases skipped
  obtain ⟨position, source, there⟩ := exists_move left
  rw [List.getElem?_take] at there
  split at there
  next inside =>
    refine ⟨position, inside, source, _, there, clears, ?_⟩
    intro other transition again same ends
    exact sound.end_unique there clears.isTerminal again ends same
  next => cases there

/-- Every start of a task in a list of events comes when its dependencies have ended well. -/
def Guarded (graph : Graph) (events : List Event) : Prop :=
  ∀ (position : Nat) (transition : Transition), events[position]? = some (Event.moved transition) →
    transition.target = .running → ∃ task ∈ graph.tasks, task.name = transition.task ∧
      ∀ dependency ∈ task.dependsOn, (stateOf (events.take position) dependency).Clears

end History

namespace Run

variable {graph : Graph} {seeds : KeyMap Seed} {run next : Run} {step : Step}

/-- What is published of an ended task, the events tell too. -/
theorem Orderly.stateOf_of_cleared (orderly : Orderly graph seeds run) {name : String}
    (cleared : run.Cleared name) : (History.stateOf run.scene.events name).Clears := by
  obtain ⟨runner, found, clears⟩ := cleared
  rw [orderly.logged found, (orderly.fits found).logged_of_terminal clears.isTerminal]
  exact clears

/-- A task that is about to start knows that its dependencies let it. -/
theorem Orderly.isCleared_of_starting (orderly : Orderly graph seeds run) (careful : Careful run)
    (restores : seeds.RestoresCleared) {name : String} {runner : Runner}
    (found : run.find? name = some runner) {further : Next}
    (phase : runner.phase = .announcing .running further) : runner.IsCleared run := by
  have notRestored : ¬runner.IsRestored := by
    rintro ⟨state, seed⟩
    have fits := orderly.fits found
    simp only [Runner.Fits, phase] at fits
    cases fits with
    | restore same =>
        rw [(orderly.staffed found).2] at same
        cases (restores.clears same).isTerminal
    | enter fresh => exact fresh.not_restored ⟨state, seed⟩
  have informed := careful name runner found
  simp only [Runner.Informed, phase] at informed
  exact informed.1 notRestored

/-- No step of a run lets a task start too early. -/
theorem guarded_change (orderly : Orderly graph seeds run) (careful : Careful run)
    (restores : seeds.RestoresCleared) (guarded : History.Guarded graph run.scene.events)
    (change : run.Change step next) : History.Guarded graph next.scene.events := by
  refine change.forall_moved (P := fun before transition => transition.target = .running →
    ∃ task ∈ graph.tasks, task.name = transition.task ∧
      ∀ dependency ∈ task.dependsOn, (History.stateOf before dependency).Clears) guarded ?_
  rintro runner target further found phase starts
  cases starts
  have cleared := orderly.isCleared_of_starting careful restores found phase
  refine ⟨_, (orderly.staffed found).1, rfl, ?_⟩
  intro dependency depends
  exact orderly.stateOf_of_cleared (cleared dependency depends)

/-- An attempt is started only by a runner at its launch. -/
theorem launching_of_launches (change : run.Change step next) {request : Request}
    (launched : next.scene.launches = run.scene.launches ++ [request]) :
    ∃ runner, run.find? request.name = some runner ∧ runner.phase = .launching ∧
      request = runner.request run.scene.store := by
  have unchanged : next.scene.launches ≠ run.scene.launches := by
    intro same
    have lengths := congrArg List.length (same.symm.trans launched)
    simp at lengths
  cases change with
  | act found act =>
      rename_i before runner scene
      cases act with
      | launch phase =>
          have same := List.append_cancel_left launched
          cases same
          exact ⟨before, found, phase, rfl⟩
      | _ => exact absurd rfl unchanged
  | line | cancel | aggregate => exact absurd rfl unchanged
  | aside runners scene => exact absurd (congrArg Scene.launches scene) unchanged

/-- In every run, whenever the events let a task start, each of its dependencies was completed or
skipped earlier in them, which is its only end; and whenever an attempt is started, each dependency
of the task shows such an end. -/
theorem dependencies_end_first {tasks : List Task} (accepted : Graph.ofTasks tasks = .ok graph)
    (restores : seeds.RestoresCleared) {limit : Nat} {store : Store} {cancelled keeps saves : Bool}
    {slot : Option Snapshot} {steps : List Step}
    (course : (start graph limit seeds store cancelled keeps saves slot).steps? steps = some run) :
    (∀ (position : Nat) (transition : Transition),
      run.scene.events[position]? = some (.moved transition) → transition.target = .running →
        ∃ task ∈ graph.tasks, task.name = transition.task ∧ ∀ dependency ∈ task.dependsOn,
          ∃ earlier < position, History.ClearedAt run.scene.events dependency earlier) ∧
    ∀ (step : Step) (next : Run) (request : Request), run.step? step = some next →
      next.scene.launches = run.scene.launches ++ [request] →
        ∃ task ∈ graph.tasks, task.name = request.name ∧ ∀ dependency ∈ task.dependsOn,
          ∃ handle, run.handle? dependency = some handle ∧ handle.state.Clears := by
  have sound := Graph.sound_of_ofTasks accepted
  have reached : Orderly graph seeds run ∧ Careful run ∧
      History.Guarded graph run.scene.events := by
    have taken : Course (fun _ _ => True) _ steps run :=
      Course.of_steps? course fun _ _ _ => trivial
    refine taken.invariant
      (P := fun run => Orderly graph seeds run ∧ Careful run ∧
        History.Guarded graph run.scene.events)
      ⟨Orderly.start, Careful.start, fun position transition there => by cases there⟩ ?_
    rintro run next step ⟨orderly, careful, guarded⟩ _ change
    exact ⟨orderly.change change, careful.change orderly sound restores change,
      guarded_change orderly careful restores guarded change⟩
  obtain ⟨orderly, careful, guarded⟩ := reached
  refine ⟨?_, ?_⟩
  · intro position transition there starts
    obtain ⟨task, member, same, cleared⟩ := guarded position transition there starts
    refine ⟨task, member, same, ?_⟩
    intro dependency depends
    exact History.exists_clearedAt orderly.sound (cleared dependency depends)
  · intro step next request taken launched
    obtain ⟨runner, found, phase, _⟩ := launching_of_launches (change_of_step? taken) launched
    refine ⟨runner.task, (orderly.staffed found).1, name_of_find? found, ?_⟩
    intro dependency depends
    have informed := careful _ runner found
    simp only [Runner.Informed, phase] at informed
    obtain ⟨other, otherFound, clears⟩ := informed dependency depends
    exact ⟨other.handle, by rw [handle?, otherFound, Option.map_some], clears⟩

/-- The steps of two tasks in a row up to the launch of the second. -/
def pairSteps : List Step :=
  List.replicate 9 (.runner "first") ++ [.ended "first" (.report ⟨false, false, []⟩)] ++
    List.replicate 4 (.runner "first") ++ List.replicate 9 (.runner "second")

theorem second_of_pair_starts_after_first :
    ∃ run, (start Graph.pair 1 .empty .empty false false false none).steps? pairSteps = some run ∧
      run.scene.events[4]? = some (.moved ⟨"second", .pending, .running⟩) ∧
      (∃ earlier < 4, History.ClearedAt run.scene.events "first" earlier) ∧
      ∃ handle, run.handle? "first" = some handle ∧ handle.state.Clears := by
  obtain ⟨run, reached, there, next, request, taken, launched, name⟩ :
      ∃ run, (start Graph.pair 1 .empty .empty false false false none).steps? pairSteps = some run ∧
        run.scene.events[4]? = some (.moved ⟨"second", .pending, .running⟩) ∧
        ∃ next request, run.step? (.runner "second") = some next ∧
          next.scene.launches = run.scene.launches ++ [request] ∧ request.name = "second" :=
    ⟨_, rfl, rfl, _, _, rfl, rfl, rfl⟩
  have restores : KeyMap.RestoresCleared .empty := fun _ _ known => by cases known
  have depends : ∀ task ∈ Graph.pair.tasks, task.name = "second" → "first" ∈ task.dependsOn := by
    decide
  obtain ⟨started, attempted⟩ := dependencies_end_first Graph.pair_accepted restores reached
  obtain ⟨task, member, same, ended⟩ := started 4 _ there rfl
  obtain ⟨other, otherMember, otherSame, shown⟩ := attempted _ next request taken launched
  exact ⟨run, reached, there, ended _ (depends task member same),
    shown _ (depends other otherMember (otherSame.trans name))⟩

end Run

end JobGraph
