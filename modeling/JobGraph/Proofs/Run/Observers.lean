import JobGraph.Proofs.Run.Records

/-!
# Observers

Observers look on.  Whatever happens in a run happens in the same way when nobody looks
(`Run.steps?_unattended`), so what is true of all runs without observers is true of all runs.  Each
observer is called for a notice before any of them is called for the next one
(`Aggregator.CallsAll`), so all of them hear the same.
-/

namespace JobGraph

namespace Aggregator

variable {events : List Event} {closed complete : Bool} {aggregator next : Aggregator}

/-! ## Without observers -/

/-- The aggregator as it is when nobody looks. -/
def unattended (aggregator : Aggregator) : Aggregator :=
  { aggregator with observers := 0, calls := [] }

theorem step?_unattended (events : List Event) (closed complete : Bool) (aggregator : Aggregator) :
    aggregator.unattended.step? events closed complete =
      (aggregator.step? events closed complete).map unattended := by
  rcases aggregator with ⟨_, taken, phase, _, _, _⟩
  unfold step?
  dsimp only [unattended]
  cases phase with
  | ended => rfl
  | serving =>
      cases events[taken]? with
      | some event => cases event <;> rfl
      | none =>
          dsimp only
          rw [Option.map_if]
          rfl
  | draining =>
      cases events[taken]? with
      | some event => cases event <;> rfl
      | none => rfl

/-! ## Calls -/

/-- All observers have been called for each notice, one after the other, before the next one. -/
def CallsAll (aggregator : Aggregator) : Prop :=
  aggregator.calls = aggregator.notices.flatMap fun notice =>
    (List.range aggregator.observers).map fun observer => (observer, notice)

theorem CallsAll.tell (all : aggregator.CallsAll) (notice : Notice) :
    (aggregator.tell notice).CallsAll := by
  change aggregator.calls ++ _ = (aggregator.notices ++ [notice]).flatMap _
  rw [List.flatMap_append, List.flatMap_singleton, all]
  rfl

theorem CallsAll.step? (all : aggregator.CallsAll)
    (taken : aggregator.step? events closed complete = some next) :
    next.CallsAll ∧ next.observers = aggregator.observers := by
  rcases step?_cases taken with ⟨event, _, _, rfl⟩ | ⟨_, _, rfl⟩ | ⟨_, _, _, rfl⟩
  · cases event with
    | moved | logged =>
        refine ⟨CallsAll.tell ?_ _, rfl⟩
        exact all
  · refine ⟨CallsAll.tell ?_ _, rfl⟩
    exact all
  · exact ⟨all, rfl⟩

/-- What one of the observers has heard. -/
def heard (aggregator : Aggregator) (observer : Nat) : List Notice :=
  (aggregator.calls.filter fun call => call.1 = observer).map Prod.snd

/-- Every observer has heard all that was told. -/
theorem CallsAll.heard_eq (all : aggregator.CallsAll) {observer : Nat}
    (inside : observer < aggregator.observers) :
    aggregator.heard observer = aggregator.notices := by
  have one : ∀ notice : Notice, (((List.range aggregator.observers).map fun other =>
      (other, notice)).filter fun call => call.1 = observer) = [(observer, notice)] := by
    intro notice
    have once : (List.range aggregator.observers).count observer = 1 :=
      List.count_eq_one_of_mem List.nodup_range (List.mem_range.2 inside)
    rw [List.filter_map]
    change ((List.range aggregator.observers).filter fun other => other = observer).map _ = _
    rw [List.filter_eq, once, List.replicate_one, List.map_singleton]
  rw [heard, all]
  simp [List.filter_flatMap, one, List.map_flatMap]

end Aggregator

/-! ## Runs -/

namespace Run

/-- The run as it is when nobody looks. -/
def unattended (run : Run) : Run := { run with aggregator := run.aggregator.unattended }

theorem find?_unattended (run : Run) : run.unattended.find? = run.find? := rfl

theorem handle?_unattended (run : Run) : run.unattended.handle? = run.handle? := rfl

theorem saverStep?_unattended (run : Run) (accepted : Bool) :
    run.unattended.saverStep? accepted = (run.saverStep? accepted).map unattended := by
  rcases run with ⟨_, _, _, saver, _, _, _, _, _⟩
  cases saver with
  | waiting =>
      rw [saverStep?, saverStep?, Option.map_if]
      rfl
  | _ => rfl

theorem finalize_unattended (run : Run) (accepted : Bool) :
    run.unattended.finalize accepted = (run.finalize accepted).unattended := by
  rcases run with ⟨_, _, aggregator, _, _, _, keeps, _, _⟩
  cases keeps with
  | false => rfl
  | true =>
      unfold finalize
      dsimp only [unattended, Aggregator.unattended]
      cases FinalCheckpoint.ofStates aggregator.states <;> rfl

theorem conductorStep?_unattended (run : Run) (accepted : Bool) :
    run.unattended.conductorStep? accepted = (run.conductorStep? accepted).map unattended := by
  rcases run with ⟨_, _, _, _, conductor, _, _, _, _⟩
  cases conductor with
  | settling | collecting =>
      rw [conductorStep?, conductorStep?, Option.map_if]
      rfl
  | finalizing => exact congrArg some (finalize_unattended _ accepted)
  | done _ => rfl

/-- What can happen in a run can happen in it when nobody looks, and leads to the same. -/
theorem step?_unattended (run : Run) (step : Step) :
    run.unattended.step? step = (run.step? step).map unattended := by
  cases step with
  | runner name =>
      rw [step?, step?, find?_unattended, handle?_unattended]
      cases run.find? name with
      | none => rfl
      | some runner =>
          change (runner.step? run.handle? run.scene).bind _ =
            ((runner.step? run.handle? run.scene).bind _).map _
          cases runner.step? run.handle? run.scene <;> rfl
  | overtaken name =>
      rw [step?, step?, find?_unattended, handle?_unattended]
      cases run.find? name with
      | none => rfl
      | some runner =>
          change (runner.overtaken? run.handle? run.scene).bind _ =
            ((runner.overtaken? run.handle? run.scene).bind _).map _
          cases runner.overtaken? run.handle? run.scene <;> rfl
  | line name severity message =>
      rw [step?, step?, find?_unattended]
      cases run.find? name with
      | none => rfl
      | some runner =>
          rw [Option.bind_eq_bind, Option.bind_some, Option.bind_some, Option.map_if]
          rfl
  | ended name result =>
      rw [step?, step?, find?_unattended]
      cases run.find? name with
      | none => rfl
      | some runner =>
          dsimp only [Option.bind_eq_bind, Option.bind_some]
          cases runner.ended? result <;> rfl
  | rested name =>
      rw [step?, step?, find?_unattended]
      cases run.find? name with
      | none => rfl
      | some runner =>
          change (runner.rested? run.scene).map _ = ((runner.rested? run.scene).map _).map _
          cases runner.rested? run.scene <;> rfl
  | cancel => rfl
  | aggregator =>
      rw [step?, step?]
      change (run.aggregator.unattended.step? run.scene.events run.isQuiet run.complete).map _ = _
      rw [Aggregator.step?_unattended]
      cases run.aggregator.step? run.scene.events run.isQuiet run.complete <;> rfl
  | tick =>
      rw [step?, step?, Option.map_if]
      rfl
  | saver accepted => exact run.saverStep?_unattended accepted
  | conductor accepted => exact run.conductorStep?_unattended accepted

/-- A course of a run is a course of it when nobody looks. -/
theorem steps?_unattended (run : Run) (steps : List Step) :
    run.unattended.steps? steps = (run.steps? steps).map unattended := by
  induction steps generalizing run with
  | nil => rfl
  | cons step rest inductionHypothesis =>
      rw [steps?, steps?, step?_unattended]
      cases run.step? step with
      | none => rfl
      | some next => exact inductionHypothesis next

/-- Whatever an attended run comes to, the run comes to when nobody looks. -/
theorem steps?_of_attended {run last : Run} {observers : Nat} {steps : List Step}
    (nobody : run.unattended = run) (course : (run.attend observers).steps? steps = some last) :
    run.steps? steps = some last.unattended := by
  have alone := (run.attend observers).steps?_unattended steps
  rw [course] at alone
  exact nobody ▸ alone

/-- The observers of a run stay, and all of them are called for every notice. -/
theorem callsAll_of_attended {run last : Run} {observers : Nat} {steps : List Step}
    (nobody : run.unattended = run) (silent : run.aggregator.notices = [])
    (course : (run.attend observers).steps? steps = some last) :
    last.aggregator.CallsAll ∧ last.aggregator.observers = observers := by
  refine steps?_invariant (P := fun run =>
    run.aggregator.CallsAll ∧ run.aggregator.observers = observers) course ⟨?_, rfl⟩ ?_
  · rw [Aggregator.CallsAll, attend, Aggregator.attend, silent, ← nobody]
    rfl
  · rintro run next step ⟨all, same⟩ change
    cases change with
    | aggregate taken =>
        obtain ⟨called, kept⟩ := all.step? taken
        exact ⟨called, kept.trans same⟩
    | act | line | cancel => exact ⟨all, same⟩
    | aside _ _ still => exact still ▸ ⟨all, same⟩

end Run

end JobGraph
