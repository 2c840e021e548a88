import JobGraph.Proofs.Run.Checkpoints
import JobGraph.Proofs.Run.DependencySafety
import JobGraph.Proofs.Run.LastCheckpoint
import JobGraph.Proofs.Run.Resume
import JobGraph.Proofs.Run.Visibility

/-!
# What a checkpoint hands on

A task that takes part in a run ends well only when all its dependencies did or were taken over, and
the events tell so in this order.  So with a task that ended well a checkpoint holds those that it
depends on, and the run that resumes from it takes over tasks that depend only on such tasks.

Tasks that were taken over are announced in any order.  A checkpoint made before all of them are
announced may hold one without its dependencies, so it has to hold them all; a run that took nothing
over has none to announce, and in the last checkpoint all are announced.
-/

namespace JobGraph

namespace History

/-- Every task that took part and ended well did so when its dependencies had ended well, apart from
those that were taken over. -/
def Grounded (graph : Graph) (seeds : KeyMap Seed) (events : List Event) : Prop :=
  ∀ (position : Nat) (transition : Transition), events[position]? = some (Event.moved transition) →
    transition.target.Clears → ¬seeds.Restores transition.task →
      ∀ dependency, graph.DependsOn transition.task dependency →
        seeds.Restores dependency ∨ (stateOf (events.take position) dependency).Clears

variable {graph : Graph} {seeds : KeyMap Seed} {events : List Event} {seen : Nat}

/-- What a front part of the events tells of the tasks that ended well is grounded in that part. -/
theorem Grounded.clears_of_dependsOn (grounded : Grounded graph seeds events)
    (sound : Sound graph.names events) {name dependency : String}
    (clears : (stateOf (events.take seen) name).Clears) (notRestored : ¬seeds.Restores name)
    (depends : graph.DependsOn name dependency) :
    seeds.Restores dependency ∨ (stateOf (events.take seen) dependency).Clears := by
  obtain ⟨position, inside, source, target, there, ended, _⟩ := exists_clearedAt sound clears
  rcases grounded position _ there ended notRestored dependency depends with restored | earlier
  · exact Or.inl restored
  · right
    rw [sound.stateOf_of_terminal earlier.isTerminal (Nat.le_of_lt inside)]
    exact earlier

/-- A front part of the events that tells the end of every task that was taken over leads to a map
from which a run can be planned that takes over tasks only together with their dependencies. -/
theorem Grounded.exists_closed_plan (grounded : Grounded graph seeds events)
    (sound : Sound graph.names events) (accepted : graph.Sound)
    (closed : seeds.RestoresClosed graph)
    (shown : ∀ name ∈ graph.names, seeds.Restores name → (stateOf (events.take seen) name).Clears)
    {states : StateMap}
    (same : states = replay (StateMap.allIn graph.names .init) (events.take seen))
    (store : Store) :
    ∃ plan, Snapshot.plan ⟨states, store⟩ graph = .ok plan ∧ plan.store = store ∧
      plan.seeds.RestoresCleared ∧ plan.seeds.RestoresClosed graph := by
  have places : states.Places graph.names (stateOf (events.take seen)) :=
    same ▸ (sound.take seen).places
  obtain ⟨plan, planned, kept, goesBy⟩ := Snapshot.exists_plan places accepted.distinct store
  have restores_iff : ∀ name, plan.seeds.Restores name ↔
      name ∈ graph.names ∧ (stateOf (events.take seen) name).Clears := by
    intro name
    simp only [KeyMap.restores_iff, KeyMap.find?_eq_restored_iff goesBy]
    constructor
    · rintro ⟨state, listed, saved, clears⟩
      exact ⟨listed, (places.stateOf?_eq_some_iff listed).1 saved ▸ clears⟩
    · rintro ⟨listed, clears⟩
      exact ⟨_, listed, places.stateOf? listed, clears⟩
  refine ⟨plan, planned, kept, ?_, ?_⟩
  · intro name state known
    exact ((KeyMap.find?_eq_restored_iff goesBy).1 known).2.2
  · intro name dependency depends restored
    have clears := ((restores_iff name).1 restored).2
    have listed : dependency ∈ graph.names := by
      obtain ⟨task, member, _, dependsOn⟩ := depends
      exact accepted.known task member dependency dependsOn
    rw [restores_iff]
    refine ⟨listed, ?_⟩
    by_cases before : seeds.Restores name
    · exact shown dependency listed (closed name dependency depends before)
    · rcases grounded.clears_of_dependsOn sound clears before depends with restored | ended
      · exact shown dependency listed restored
      · exact ended

end History

namespace Run

variable {graph : Graph} {seeds : KeyMap Seed} {run next : Run} {step : Step} {steps : List Step}

/-- Whoever announces that its task ended well has gone past its dependencies. -/
theorem Heedful.lets_of_announcing (heedful : Heedful seeds run) (orderly : Orderly graph seeds run)
    (sound : graph.Sound) {name : String} {runner : Runner} (found : run.find? name = some runner)
    {target : TaskState} {further : Next} (phase : runner.phase = .announcing target further)
    (clears : target.Clears) (notRestored : ¬seeds.Restores name) {dependency : String}
    (depends : graph.DependsOn name dependency) : run.Lets seeds dependency := by
  obtain ⟨task, member, same, listed⟩ := depends
  have isTask : runner.task = task := orderly.task_eq sound member (same.symm ▸ found)
  have past : runner.isPast = true := by
    rcases clears with rfl | rfl
    · simp [Runner.isPast, phase]
    · simp [Runner.isPast, phase]
  refine (heedful name runner found).past ?_ past dependency (isTask ▸ listed)
  rintro ⟨state, seed⟩
  exact notRestored ⟨state, (orderly.staffed found).2.symm.trans seed⟩

theorem grounded_change (sound : graph.Sound) (orderly : Orderly graph seeds run)
    (heedful : Heedful seeds run) (grounded : History.Grounded graph seeds run.scene.events)
    (change : run.Change step next) : History.Grounded graph seeds next.scene.events := by
  refine change.forall_moved (P := fun before transition => transition.target.Clears →
    ¬seeds.Restores transition.task → ∀ dependency, graph.DependsOn transition.task dependency →
      seeds.Restores dependency ∨ (History.stateOf before dependency).Clears) grounded ?_
  intro runner target further found phase clears notRestored dependency depends
  have lets := heedful.lets_of_announcing orderly sound found phase clears notRestored depends
  exact lets.imp id orderly.stateOf_of_cleared

theorem Grounded.of_steps? (sound : graph.Sound) {limit : Nat} {store : Store}
    {cancelled keeps saves : Bool} {slot : Option Snapshot}
    (taken : (start graph limit seeds store cancelled keeps saves slot).steps? steps = some run) :
    History.Grounded graph seeds run.scene.events := by
  have both : Heedful seeds run ∧ History.Grounded graph seeds run.scene.events := by
    refine Orderly.invariant (P := fun run => Heedful seeds run ∧
      History.Grounded graph seeds run.scene.events) taken
      ⟨Heedful.start, fun position transition there => by cases there⟩ ?_
    rintro run next step orderly ⟨heedful, grounded⟩ change
    exact ⟨heedful.change orderly change, grounded_change sound orderly heedful grounded change⟩
  exact both.2

/-- A finished run has told the end of every task that was taken over. -/
theorem Still.clears_of_restored (still : run.Still) (kept : Kept graph seeds run)
    (restores : seeds.RestoresCleared) {name : String} (listed : name ∈ graph.names)
    (restored : seeds.Restores name) :
    (History.stateOf (run.scene.events.take run.aggregator.taken) name).Clears := by
  obtain ⟨runner, found⟩ := kept.orderly.exists_runner listed
  obtain ⟨state, seed⟩ := restored
  have own := (kept.orderly.staffed found).2.trans seed
  have fits := kept.orderly.fits found
  simp only [Runner.Fits, still.gone found] at fits
  have same : runner.state = state := by
    have ended := fits.1 ⟨state, own⟩
    rw [own] at ended
    injection ended with equal
    exact equal.symm
  have placed := (still.places kept.orderly kept.heard found runner.state).2 rfl
  rw [((kept.orderly.places _ name).1 placed).2, same]
  exact restores.clears seed

/-- From every checkpoint of a run that shows all tasks which the run took over, and in any case
from the one that it leaves behind, a run can be planned that takes over only tasks which ended
well, each together with those it depends on, if the first run did so. -/
theorem checkpoints_seed_closed_runs {tasks : List Task}
    (accepted : Graph.ofTasks tasks = .ok graph)
    (restores : seeds.RestoresCleared) (closed : seeds.RestoresClosed graph) {limit : Nat}
    {store : Store} {cancelled keeps saves : Bool} {slot : Option Snapshot}
    (course : (start graph limit seeds store cancelled keeps saves slot).steps? steps = some run)
    {ledger : Ledger}
    (told : (start graph limit seeds store cancelled keeps saves slot).ledgerAfter .empty steps =
      ledger) :
    (∀ built ∈ ledger.snapshots,
      (∀ name ∈ graph.names, seeds.Restores name →
        ∃ state, built.snapshot.states.stateOf? name = some state ∧ state.Clears) →
      ∃ plan, built.snapshot.plan graph = .ok plan ∧ plan.store = built.snapshot.store ∧
        plan.seeds.RestoresCleared ∧ plan.seeds.RestoresClosed graph) ∧
    (run.conductor = .done (some .written) → ∃ snapshot plan, run.slot = some snapshot ∧
      snapshot.plan graph = .ok plan ∧ plan.store = run.scene.store ∧
        plan.seeds.RestoresCleared ∧ plan.seeds.RestoresClosed graph) := by
  have sound := Graph.sound_of_ofTasks accepted
  have grounded : History.Grounded graph seeds run.scene.events := Grounded.of_steps? sound course
  have kept : Kept graph seeds run := Kept.of_steps? sound course
  refine ⟨?_, ?_⟩
  · intro built member shown
    have recorded : Recorded graph seeds store run ledger := told ▸ Recorded.start.steps course
    have consistent := recorded.documents.built built member
    have places := (kept.orderly.sound.take built.seen).places
    rw [← consistent.states] at places
    refine grounded.exists_closed_plan kept.orderly.sound sound closed ?_ consistent.states
      built.snapshot.store
    intro name listed restored
    obtain ⟨state, saved, clears⟩ := shown name listed restored
    exact (places.stateOf?_eq_some_iff listed).1 saved ▸ clears
  · intro done
    have still : run.Still := Concludes.start.steps? course (by rw [done]; rfl)
    obtain ⟨plan, planned⟩ := grounded.exists_closed_plan kept.orderly.sound sound closed
      (fun name listed restored => still.clears_of_restored kept restores listed restored)
      kept.orderly.mapped run.scene.store
    exact ⟨_, plan, slot_of_done_written course done, planned⟩

end Run

end JobGraph
