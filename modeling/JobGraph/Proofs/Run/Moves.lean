import JobGraph.Proofs.Run.Records

/-!
# The moves of one task

Out of all events, those that move one task, in their order.  In a sound history they form a chain
from `init` to the state that the events tell of the task.
-/

namespace JobGraph.History

/-- The transitions among some events. -/
def moves (events : List Event) : List Transition := events.filterMap Event.transition?

/-- The transitions of one task. -/
def movesOf (events : List Event) (name : String) : List Transition :=
  (moves events).filter fun transition => transition.task = name

/-- The states that a task is moved into, one after the other. -/
def targetsOf (events : List Event) (name : String) : List TaskState :=
  (movesOf events name).map Transition.target

/-- Each move starts where the one before it ended, the first one at `init`, and none starts at a
terminal state. -/
structure Chained (moves : List Transition) : Prop where
  linked : moves.map Transition.source = (TaskState.init :: moves.map Transition.target).dropLast
  active : ∀ move ∈ moves, move.source.isTerminal = false

section Concatenation

variable (events later : List Event) (name : String)

theorem movesOf_append :
    movesOf (events ++ later) name = movesOf events name ++ movesOf later name := by
  simp only [movesOf, moves, List.filterMap_append, List.filter_append]

@[simp]
theorem movesOf_logged (line : LogLine) : movesOf [.logged line] name = [] := rfl

theorem movesOf_moved (transition : Transition) :
    movesOf [.moved transition] name = if transition.task = name then [transition] else [] := by
  by_cases same : transition.task = name
  · simp [movesOf, moves, Event.transition?, same]
  · simp [movesOf, moves, Event.transition?, same]

theorem targetsOf_append :
    targetsOf (events ++ later) name = targetsOf events name ++ targetsOf later name := by
  simp only [targetsOf, movesOf_append, List.map_append]

@[simp]
theorem targetsOf_logged (line : LogLine) : targetsOf [.logged line] name = [] := rfl

theorem targetsOf_moved (transition : Transition) :
    targetsOf [.moved transition] name =
      if transition.task = name then [transition.target] else [] := by
  rw [targetsOf, movesOf_moved]
  split <;> rfl

end Concatenation

theorem stateOf_eq_getLastD (events : List Event) (name : String) :
    stateOf events name = (targetsOf events name).getLastD .init := by
  induction events using List.reverseRecOn with
  | nil => rfl
  | append_singleton earlier event inductionHypothesis =>
      rw [stateOf_concat, targetsOf_append]
      cases event with
      | logged line => simpa [stateAfter] using inductionHypothesis
      | moved transition =>
          rw [stateAfter, targetsOf_moved]
          by_cases same : transition.task = name
          · rw [if_pos same, if_pos same, List.getLastD_concat]
          · rw [if_neg same, if_neg same, List.append_nil]
            exact inductionHypothesis

theorem Sound.chained {names : List String} {events : List Event} (sound : Sound names events)
    (name : String) : Chained (movesOf events name) := by
  induction events using List.reverseRecOn with
  | nil => exact ⟨rfl, fun _ member => by cases member⟩
  | append_singleton earlier event inductionHypothesis =>
      have before : Sound names earlier := by
        have front := sound.take earlier.length
        rwa [List.take_left] at front
      have chained := inductionHypothesis before
      rw [movesOf_append]
      cases event with
      | logged line =>
          rw [movesOf_logged, List.append_nil]
          exact chained
      | moved transition =>
          rw [movesOf_moved]
          by_cases same : transition.task = name
          · have fits := sound earlier.length transition List.getElem?_concat_length
            rw [List.take_left, same, stateOf_eq_getLastD] at fits
            have rejoined : (TaskState.init :: targetsOf earlier name).dropLast ++
                [(targetsOf earlier name).getLastD .init] =
                  TaskState.init :: targetsOf earlier name := by
              rw [← List.getLast_eq_getLastD (List.cons_ne_nil _ _)]
              exact List.dropLast_concat_getLast _
            rw [if_pos same]
            refine ⟨?_, ?_⟩
            · rw [List.map_append, List.map_append, ← List.cons_append, List.map_singleton,
                List.map_singleton, List.dropLast_concat, chained.linked, fits.2.1]
              exact rejoined
            · intro move member
              rcases List.mem_append.1 member with earlierMove | isLast
              · exact chained.active move earlierMove
              · cases List.mem_singleton.1 isLast
                exact fits.2.2
          · rw [if_neg same, List.append_nil]
            exact chained

end JobGraph.History

namespace JobGraph

/-! ## What a step adds -/

/-- The state that a runner is about to tell of its task, if it is about to tell one. -/
def Phase.announced : Phase → List TaskState
  | .announcing target _ => [target]
  | _ => []

/-- The attempt that a runner is about to launch, if it is about to launch one. -/
def Runner.launched (runner : Runner) (store : Store) : List Request :=
  if runner.phase = .launching then [runner.request store] else []

namespace Runner.Act

variable {handle? : String → Option Handle} {runner next : Runner} {scene after : Scene}
  {step : Step}

/-- A step of a runner moves its own task, to the state that it was about to tell, or none. -/
theorem targets (act : runner.Act handle? scene step next after) (name : String) :
    History.targetsOf after.events name = History.targetsOf scene.events name ++
      if runner.name = name then runner.phase.announced else [] := by
  cases act with
  | announce phase =>
      rw [Scene.send, History.targetsOf_append, History.targetsOf_moved, phase]
      rfl
  | fail phase =>
      have quiet : runner.phase.announced = [] := by rw [phase]; rfl
      rw [Scene.send, History.targetsOf_append, History.targetsOf_logged, quiet, ite_self]
  | withdraw phase =>
      simp only [Runner.withdraw, phase, Phase.announced, ite_self, List.append_nil]
  | stop heeds =>
      cases phase : runner.phase with
      | announcing => simp [Phase.heedsStop, phase] at heeds
      | _ => simp only [Phase.announced, ite_self, List.append_nil]
  | _ phase => simp only [phase, Phase.announced, ite_self, List.append_nil]

/-- A step of a runner launches the attempt that it was about to launch, or none. -/
theorem launches (act : runner.Act handle? scene step next after) :
    after.launches = scene.launches ++ runner.launched scene.store := by
  cases act with
  | launch phase => rw [launched, if_pos phase]
  | stop heeds =>
      have notLaunching : runner.phase ≠ .launching := by
        intro phase
        simp [Phase.heedsStop, phase] at heeds
      rw [launched, if_neg notLaunching, List.append_nil]
  | _ phase =>
      simp only [launched, phase, reduceCtorEq, if_false, List.append_nil, Scene.send,
        Runner.withdraw]

end Runner.Act

end JobGraph
