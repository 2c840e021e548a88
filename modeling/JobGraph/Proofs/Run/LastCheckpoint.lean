import JobGraph.Proofs.Run.Conclusion

/-!
# The last checkpoint

The saver writes while the tasks run, and a write that it has begun may still take effect when all
of them have ended.  The conductor waits for the saver before it turns to the last checkpoint, so
what it writes or clears then is what is kept: nothing that the saver has begun comes after it, and
neither the states nor the store change any more.
-/

namespace JobGraph.Run

variable {graph : Graph} {seeds : KeyMap Seed} {run later : Run} {steps more : List Step}

/-! ## What the conductor does to the checkpoint -/

private theorem finalize_of_keeps {accepted : Bool} {final : FinalCheckpoint}
    (finished : (run.finalize accepted).conductor = .done (some final)) :
    run.keeps = true ∧ accepted = true ∧
      FinalCheckpoint.ofStates run.aggregator.states = final := by
  rw [finalize_conductor] at finished
  have worked := ConductorPhase.done.inj finished
  split at worked
  next both =>
    have parts := Bool.and_eq_true_iff.1 both
    exact ⟨parts.1, parts.2, Option.some.inj worked⟩
  next => cases worked

theorem slot_of_cleared {accepted : Bool}
    (finished : (run.finalize accepted).conductor = .done (some .cleared)) :
    (run.finalize accepted).slot = none ∧ run.aggregator.states.hasFailures = false := by
  obtain ⟨keeps, rfl, final⟩ := finalize_of_keeps finished
  refine ⟨?_, ?_⟩
  · simp only [finalize, keeps, final, Bool.not_true, Bool.false_eq_true, if_false, if_true]
  · cases failed : run.aggregator.states.hasFailures with
    | false => rfl
    | true => simp [FinalCheckpoint.ofStates, failed] at final

theorem slot_of_written {accepted : Bool}
    (finished : (run.finalize accepted).conductor = .done (some .written)) :
    (run.finalize accepted).slot = some ⟨run.aggregator.states, run.scene.store⟩ := by
  obtain ⟨keeps, rfl, final⟩ := finalize_of_keeps finished
  simp only [finalize, keeps, final, Bool.not_true, Bool.false_eq_true, if_false, write, if_true]

private theorem finalize_told (run : Run) (accepted told : Bool) :
    ({ run with scene := { run.scene with cancelled := told } } : Run).finalize accepted =
      { run.finalize accepted with scene := { run.scene with cancelled := told } } := by
  unfold finalize
  split
  · rfl
  · dsimp only
    split <;> rfl

/-! ## After the conductor has turned to it -/

/-- What can become of a run whose conductor has turned to the last checkpoint: it is told to stop,
too late for everybody, or the conductor finishes, once. -/
def Closes (run : Run) (more : List Step) (later : Run) : Prop :=
  ∃ told, later = { run with scene := { run.scene with cancelled := told } } ∨
    ∃ accepted, .conductor accepted ∈ more ∧ run.conductor = .finalizing ∧
      later = { run.finalize accepted with scene := { run.scene with cancelled := told } }

theorem Closes.change {middle : Run} {step : Step} (closes : run.Closes more middle)
    (still : run.Still) (isLast : run.conductor.isLast = true) (change : middle.Change step later) :
    run.Closes (more ++ [step]) later ∧
      (step = .cancel ∨ ∃ accepted, step = .conductor accepted) := by
  obtain ⟨told, rfl | ⟨accepted, member, phase, rfl⟩⟩ := closes
  · have here : ({ run with scene := { run.scene with cancelled := told } } : Run).Still :=
      ⟨still.quiet, still.ended, still.stopped⟩
    rcases here.change_cases change with ⟨rfl, rfl⟩ | ⟨accepted, rfl, conducted⟩
    · exact ⟨⟨true, Or.inl rfl⟩, Or.inl rfl⟩
    · refine ⟨⟨told, Or.inr ⟨accepted, by simp, ?_⟩⟩, Or.inr ⟨accepted, rfl⟩⟩
      rcases conductorStep?_cases conducted with ⟨phase, _⟩ | ⟨phase, _⟩ | ⟨phase, rfl⟩
      · rw [show run.conductor = _ from phase] at isLast
        cases isLast
      · rw [show run.conductor = _ from phase] at isLast
        cases isLast
      · exact ⟨phase, finalize_told run accepted told⟩
  · have here : ({ run.finalize accepted with
        scene := { run.scene with cancelled := told } } : Run).Still := by
      have finalized := still.finalize accepted
      exact ⟨finalized.quiet, finalized.ended, finalized.stopped⟩
    rcases here.change_cases change with ⟨rfl, rfl⟩ | ⟨again, _, conducted⟩
    · exact ⟨⟨true, Or.inr ⟨accepted, List.mem_append_left _ member, phase, rfl⟩⟩, Or.inl rfl⟩
    · simp [conductorStep?] at conducted

theorem Still.closes (still : run.Still) (isLast : run.conductor.isLast = true)
    (taken : run.steps? more = some later) :
    run.Closes more later ∧
      ∀ step ∈ more, step = .cancel ∨ ∃ accepted, step = .conductor accepted := by
  induction more using List.reverseRecOn generalizing later with
  | nil =>
      cases taken
      exact ⟨⟨run.scene.cancelled, Or.inl rfl⟩, fun step member => by cases member⟩
  | append_singleton earlier step inductionHypothesis =>
      obtain ⟨middle, reached, stepped⟩ := exists_of_steps?_concat taken
      obtain ⟨closes, only⟩ := inductionHypothesis reached
      obtain ⟨further, here⟩ := closes.change still isLast (change_of_step? stepped)
      refine ⟨further, ?_⟩
      intro other member
      rcases List.mem_append.1 member with inEarlier | isStep
      · exact only other inEarlier
      · exact List.mem_singleton.1 isStep ▸ here

/-- How a finished run came about tells what it keeps. -/
theorem exists_finalized {limit : Nat} {store : Store} {cancelled keeps saves : Bool}
    {slot : Option Snapshot}
    (course : (start graph limit seeds store cancelled keeps saves slot).steps? steps = some run)
    {final : FinalCheckpoint} (done : run.conductor = .done (some final)) :
    ∃ (before : Run) (worked : Bool), (before.finalize worked).conductor = .done (some final) ∧
      run.slot = (before.finalize worked).slot ∧ run.aggregator = before.aggregator ∧
      run.scene.store = before.scene.store := by
  obtain ⟨before, worked, told, _, same⟩ := exists_finalizes Concludes.start rfl course done
  refine ⟨before, worked, ?_, ?_, ?_, ?_⟩
  · rw [← done, same]
  · rw [same]
  · rw [same, finalize_eq]
  · rw [same]

/-- What a run keeps that ended with the checkpoint written. -/
theorem slot_of_done_written {limit : Nat} {store : Store} {cancelled keeps saves : Bool}
    {slot : Option Snapshot}
    (course : (start graph limit seeds store cancelled keeps saves slot).steps? steps = some run)
    (done : run.conductor = .done (some .written)) :
    run.slot = some ⟨run.aggregator.states, run.scene.store⟩ := by
  obtain ⟨before, worked, conducted, slot, states, stored⟩ := exists_finalized course done
  rw [slot, slot_of_written conducted, states, stored]

/-- From the moment at which the conductor turns to the last checkpoint nobody else changes
anything: what is kept is what was kept then or what the conductor makes of it.  A run that ends
with the checkpoint cleared keeps none and has no failures; one that ends with the checkpoint
written keeps the states in which its tasks ended and the store that they left. -/
theorem last_checkpoint_wins {tasks : List Task} (accepted : Graph.ofTasks tasks = .ok graph)
    {limit : Nat} {store : Store} {cancelled keeps saves : Bool} {slot : Option Snapshot}
    (course : (start graph limit seeds store cancelled keeps saves slot).steps? steps = some run)
    (isLast : run.conductor.isLast = true) :
    (∀ more later, run.steps? more = some later →
      (∀ step ∈ more, step = .cancel ∨ ∃ worked, step = .conductor worked) ∧
      later.runners = run.runners ∧ later.aggregator = run.aggregator ∧
      later.scene.store = run.scene.store ∧
      ((later.slot = run.slot ∧ later.writes = run.writes) ∨
        ∃ worked, .conductor worked ∈ more ∧ run.conductor = .finalizing ∧
          later.slot = (run.finalize worked).slot ∧ later.writes = (run.finalize worked).writes)) ∧
    (run.conductor = .done (some .cleared) → run.slot = none ∧
      ∀ runner ∈ run.runners, runner.state ∉ [TaskState.failed, .defaulted, .aborted]) ∧
    (run.conductor = .done (some .written) →
      run.slot = some ⟨run.aggregator.states, run.scene.store⟩ ∧
      ∀ name runner, run.find? name = some runner →
        ∀ state, name ∈ run.aggregator.states.names state ↔ state = runner.state) := by
  have sound := Graph.sound_of_ofTasks accepted
  have kept : Kept graph seeds run := Kept.of_steps? sound course
  have still : run.Still := Concludes.start.steps? course isLast
  refine ⟨?_, ?_, ?_⟩
  · intro more later taken
    obtain ⟨⟨told, same | ⟨worked, member, phase, same⟩⟩, only⟩ := still.closes isLast taken
    · rw [same]
      exact ⟨only, rfl, rfl, rfl, Or.inl ⟨rfl, rfl⟩⟩
    · refine ⟨only, ?_, ?_, ?_, Or.inr ⟨worked, member, phase, ?_, ?_⟩⟩
      · rw [same, finalize_eq]
      · rw [same, finalize_eq]
      · rw [same]
      · rw [same]
      · rw [same]
  · intro done
    obtain ⟨before, worked, conducted, slot, states, _⟩ := exists_finalized course done
    obtain ⟨nothing, clean⟩ := slot_of_cleared conducted
    refine ⟨slot.trans nothing, ?_⟩
    intro runner member bad
    have failed : run.aggregator.states.hasFailures = true :=
      (still.hasFailures_iff sound kept.orderly kept.heard).2 ⟨runner, member, bad⟩
    rw [states, clean] at failed
    cases failed
  · intro done
    exact ⟨slot_of_done_written course done,
      fun name runner found => still.places kept.orderly kept.heard found⟩

/-- The steps of two tasks that both succeed; a write of the saver that was begun before takes
effect after the run is declared complete. -/
def lateWriteSteps : List Step :=
  List.replicate 9 (.runner "first") ++ [.ended "first" (.report ⟨false, false, []⟩)] ++
    List.replicate 4 (.runner "first") ++ List.replicate 10 (.runner "second") ++
      [.ended "second" (.report ⟨false, false, []⟩)] ++ List.replicate 4 (.runner "second") ++
        List.replicate 6 .aggregator ++ [.tick, .saver true, .saver true, .conductor true] ++
          [.aggregator, .aggregator, .saver true, .saver true, .conductor true, .conductor true]

theorem late_write_is_cleared :
    ∃ run, (start Graph.pair 1 .empty .empty false true true none).steps? lateWriteSteps =
        some run ∧
      run.conductor = .done (some .cleared) ∧ run.writes.map SavedWrite.accepted = [true] ∧
      run.slot = none ∧
      ∀ runner ∈ run.runners, runner.state ∉ [TaskState.failed, .defaulted, .aborted] := by
  obtain ⟨run, reached, finished, written⟩ :
      ∃ run, (start Graph.pair 1 .empty .empty false true true none).steps? lateWriteSteps =
        some run ∧ run.conductor = .done (some .cleared) ∧
          run.writes.map SavedWrite.accepted = [true] := ⟨_, rfl, rfl, rfl⟩
  obtain ⟨_, cleared, _⟩ := last_checkpoint_wins Graph.pair_accepted reached (by rw [finished]; rfl)
  obtain ⟨nothing, clean⟩ := cleared finished
  exact ⟨run, reached, finished, written, nothing, clean⟩

end JobGraph.Run
