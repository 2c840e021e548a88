import JobGraph.Proofs.Run.Course

/-!
# The stages of a runner

`Runner.Fits` says what phase, state, seed and number of attempts of a runner have to do with each
other; whatever happens to a runner keeps it.  Two things follow for every run: a state that is
announced is never announced from a terminal one, and only a task that takes part in the run itself
is ever attempted.
-/

namespace JobGraph

/-- The most attempts that a task is given: at least one. -/
def Task.attemptLimit (task : Task) : Nat := max 1 task.maxAttempts

namespace Runner

/-- Whether the task is to be run by this run. -/
def IsFresh (runner : Runner) : Prop := ∃ isRestart, runner.seed = .fresh isRestart

theorem IsFresh.not_restored {runner : Runner} (fresh : runner.IsFresh) : ¬runner.IsRestored := by
  obtain ⟨isRestart, seed⟩ := fresh
  rintro ⟨state, restored⟩
  cases seed.symm.trans restored

theorem IsFresh.not_skipped {runner : Runner} (fresh : runner.IsFresh) : runner.seed ≠ .skip := by
  obtain ⟨isRestart, seed⟩ := fresh
  rw [seed]
  exact fun same => by cases same

theorem fresh_of_not {runner : Runner} (notRestored : ¬runner.IsRestored)
    (notSkipped : runner.seed ≠ .skip) : runner.IsFresh := by
  cases seed : runner.seed with
  | fresh isRestart => exact ⟨isRestart, seed⟩
  | skip => exact absurd seed notSkipped
  | restored state => exact absurd ⟨state, seed⟩ notRestored

/-- The changes of state that a runner may be about to make, each with what comes after it. -/
inductive MayMove (runner : Runner) : TaskState → Next → Prop
  | restore {target : TaskState} (seed : runner.seed = .restored target)
      (here : runner.state = .init)
      (attempts : runner.attempts = 0) : MayMove runner target .leave
  | start (seed : ¬runner.IsRestored) (here : runner.state = .init)
      (attempts : runner.attempts = 0) :
      MayMove runner .pending .wait
  | enter (seed : runner.IsFresh) (here : runner.state = .pending) (some : 1 ≤ runner.attempts)
      (bound : runner.attempts ≤ runner.task.attemptLimit) : MayMove runner .running .launch
  | retry (seed : runner.IsFresh) (here : runner.state = .running) (some : 1 ≤ runner.attempts)
      (left : runner.attempts < runner.task.attemptLimit) : MayMove runner .pending .pause
  | succeed (seed : runner.IsFresh) (here : runner.state = .running) (some : 1 ≤ runner.attempts)
      (bound : runner.attempts ≤ runner.task.attemptLimit) : MayMove runner .completed .leave
  | fail (seed : runner.IsFresh) (here : runner.state = .running) (some : 1 ≤ runner.attempts)
      (bound : runner.attempts ≤ runner.task.attemptLimit) : MayMove runner .failed .leave
  | giveUp (seed : ¬runner.IsRestored) (here : runner.state = .pending)
      (attempts : runner.attempts = 0) : MayMove runner .defaulted .leave
  | skip (seed : runner.seed = .skip) (here : runner.state = .pending)
      (attempts : runner.attempts = 0) : MayMove runner .skip .leave
  | abort (seed : ¬runner.IsRestored) (here : runner.state.isTerminal = false)
      (bound : runner.attempts ≤ runner.task.attemptLimit) : MayMove runner .aborted .leave

/-- The state, the seed and the attempts of a runner are such as its phase demands. -/
def Fits (runner : Runner) : Prop :=
  match runner.phase with
  | .ready => runner.state = .init ∧ runner.attempts = 0
  | .arrived | .waiting _ _ => ¬runner.IsRestored ∧ runner.state = .pending ∧ runner.attempts = 0
  | .asking | .queued | .pausing | .resting _ =>
    runner.IsFresh ∧ runner.state = .pending ∧ runner.attempts < runner.task.attemptLimit
  | .launching | .attempting | .reported _ =>
    runner.IsFresh ∧ runner.state = .running ∧ 1 ≤ runner.attempts ∧
      runner.attempts ≤ runner.task.attemptLimit
  | .announcing target next | .publishing target next => runner.MayMove target next
  | .leaving | .gone =>
    (runner.IsRestored → runner.seed = .restored runner.state) ∧
      (¬runner.IsRestored → runner.state.isTerminal = true) ∧
        runner.attempts ≤ runner.task.attemptLimit

theorem attemptLimit_pos (task : Task) : 1 ≤ task.attemptLimit := Nat.le_max_left 1 task.maxAttempts

namespace MayMove

variable {runner : Runner} {target : TaskState} {next : Next}

/-- No runner is about to leave a terminal state. -/
theorem source_active (may : runner.MayMove target next) : runner.state.isTerminal = false := by
  cases may <;> simp_all [TaskState.isTerminal, TaskState.active]

theorem attempts_le (may : runner.MayMove target next) :
    runner.attempts ≤ runner.task.attemptLimit := by
  have positive := attemptLimit_pos runner.task
  cases may <;> omega

/-- A runner that leaves was restored, or has come to a terminal state. -/
theorem target_terminal (may : runner.MayMove target .leave) (notRestored : ¬runner.IsRestored) :
    target.isTerminal = true := by
  cases may with
  | restore seed => exact absurd ⟨_, seed⟩ notRestored
  | _ => rfl

/-- A runner that moves to a terminal state leaves after that. -/
theorem leaves (may : runner.MayMove target next) (ended : target.isTerminal = true) :
    next = .leave := by
  cases may with
  | start | enter | retry => cases ended
  | _ => rfl

/-- A restored runner moves to the state that is restored, and to no other. -/
theorem target_of_restored (may : runner.MayMove target next) {state : TaskState}
    (seed : runner.seed = .restored state) : target = state := by
  cases may with
  | restore same => exact (Seed.restored.inj (seed.symm.trans same)).symm
  | start notRestored | giveUp notRestored | abort notRestored =>
      exact absurd ⟨state, seed⟩ notRestored
  | enter fresh | retry fresh | succeed fresh | fail fresh =>
      exact absurd ⟨state, seed⟩ fresh.not_restored
  | skip skipped => cases skipped.symm.trans seed

/-- A launch follows the move of a task to `running`, and no other. -/
theorem launch_iff (may : runner.MayMove target next)
    (notRestored : runner.seed ≠ .restored .running) : next = .launch ↔ target = .running := by
  cases may with
  | enter => exact ⟨fun _ => rfl, fun _ => rfl⟩
  | restore seed =>
      exact ⟨fun launch => (by cases launch), fun running => absurd (running ▸ seed) notRestored⟩
  | start | retry | succeed | fail | giveUp | skip | abort =>
      exact ⟨fun launch => (by cases launch), fun running => (by cases running)⟩

/-- The phase has no say in what a runner may move to. -/
theorem of_phase (may : runner.MayMove target next) (phase : Phase) :
    ({ runner with phase } : Runner).MayMove target next := by
  cases may with
  | restore seed here attempts => exact .restore seed here attempts
  | start seed here attempts => exact .start seed here attempts
  | enter seed here some bound => exact .enter seed here some bound
  | retry seed here some left => exact .retry seed here some left
  | succeed seed here some bound => exact .succeed seed here some bound
  | fail seed here some bound => exact .fail seed here some bound
  | giveUp seed here attempts => exact .giveUp seed here attempts
  | skip seed here attempts => exact .skip seed here attempts
  | abort seed here bound => exact .abort seed here bound

theorem fits_announce (may : runner.MayMove target next) : (runner.announce target next).Fits :=
  may.of_phase (.announcing target next)

/-- What becomes of a runner once its new state is published. -/
theorem fits_published (may : runner.MayMove target next) :
    ({ runner with state := target, phase := next.phase } : Runner).Fits := by
  have bound := may.attempts_le
  cases next with
  | wait =>
      cases may with
      | start seed here attempts => exact ⟨seed, rfl, attempts⟩
  | launch =>
      cases may with
      | enter seed here some bound => exact ⟨seed, rfl, some, bound⟩
  | pause =>
      cases may with
      | retry seed here some left => exact ⟨seed, rfl, left⟩
  | leave =>
      refine ⟨?_, fun notRestored => may.target_terminal notRestored, bound⟩
      rintro ⟨state, seed⟩
      cases may with
      | restore same => exact same
      | succeed fresh | fail fresh => exact absurd ⟨state, seed⟩ fresh.not_restored
      | giveUp notRestored | abort notRestored => exact absurd ⟨state, seed⟩ notRestored
      | skip skipped => cases skipped.symm.trans seed

end MayMove

namespace Fits

variable {handle? : String → Option Handle} {runner next : Runner} {scene after : Scene}
  {step : Step}

theorem ofTask (task : Task) (seed : Seed) : (ofTask task seed).Fits := ⟨rfl, rfl⟩

theorem attempts_le (fits : runner.Fits) : runner.attempts ≤ runner.task.attemptLimit := by
  have positive := attemptLimit_pos runner.task
  cases phase : runner.phase with
  | announcing target next | publishing target next =>
      simp only [Fits, phase] at fits
      exact fits.attempts_le
  | _ =>
      simp only [Fits, phase] at fits
      omega

/-- A runner in a terminal state leaves or is gone. -/
theorem ended_of_terminal (fits : runner.Fits) (terminal : runner.state.isTerminal = true) :
    runner.phase = .leaving ∨ runner.phase = .gone := by
  have active : ∀ state : TaskState, runner.state = state → state.isTerminal = true := by
    intro state same
    exact same ▸ terminal
  cases phase : runner.phase with
  | leaving => exact Or.inl rfl
  | gone => exact Or.inr rfl
  | announcing target next | publishing target next =>
      simp only [Fits, phase] at fits
      cases fits.source_active.symm.trans terminal
  | ready =>
      simp only [Fits, phase] at fits
      cases active .init fits.1
  | launching | attempting | reported =>
      simp only [Fits, phase] at fits
      cases active .running fits.2.1
  | _ =>
      simp only [Fits, phase] at fits
      cases active .pending fits.2.1

/-- A runner that heeds a call to stop may end aborted. -/
theorem mayAbort (fits : runner.Fits) (heeds : runner.phase.heedsStop = true)
    (seed : runner.phase = .ready → ¬runner.IsRestored) : runner.MayMove .aborted .leave := by
  have bound := fits.attempts_le
  have active : ∀ state : TaskState, runner.state = state → state.isTerminal = false →
      runner.state.isTerminal = false := by
    intro state same active
    rw [same, active]
  cases phase : runner.phase with
  | ready =>
      simp only [Fits, phase] at fits
      exact .abort (seed phase) (active .init fits.1 rfl) bound
  | arrived | waiting =>
      simp only [Fits, phase] at fits
      exact .abort fits.1 (active .pending fits.2.1 rfl) bound
  | asking | resting =>
      simp only [Fits, phase] at fits
      exact .abort fits.1.not_restored (active .pending fits.2.1 rfl) bound
  | reported =>
      simp only [Fits, phase] at fits
      exact .abort fits.1.not_restored (active .running fits.2.1 rfl) bound
  | _ => simp [Phase.heedsStop, phase] at heeds

/-- Whatever happens to a runner keeps what its phase demands. -/
theorem act (fits : runner.Fits) (act : runner.Act handle? scene step next after) : next.Fits := by
  have bound := fits.attempts_le
  cases act with
  | restore phase seed =>
      simp only [Fits, phase] at fits
      exact MayMove.fits_announce (.restore seed fits.1 fits.2)
  | start phase seed =>
      simp only [Fits, phase] at fits
      exact MayMove.fits_announce (.start seed fits.1 fits.2)
  | stop phase seed => exact (fits.mayAbort phase seed).fits_announce
  | arrive phase | hear phase | miss phase =>
      simp only [Fits, phase] at fits
      exact fits
  | giveUp phase =>
      simp only [Fits, phase] at fits
      exact MayMove.fits_announce (.giveUp fits.1 fits.2.1 fits.2.2)
  | skip phase seed =>
      simp only [Fits, phase] at fits
      exact MayMove.fits_announce (.skip seed fits.2.1 fits.2.2)
  | clear phase seed =>
      simp only [Fits, phase] at fits
      refine ⟨fresh_of_not fits.1 seed, fits.2.1, ?_⟩
      change runner.attempts < runner.task.attemptLimit
      rw [fits.2.2]
      exact attemptLimit_pos runner.task
  | pass phase | enter phase =>
      simp only [Fits, phase] at fits
      exact .enter fits.1 fits.2.1 (Nat.succ_pos _) fits.2.2
  | queue phase =>
      simp only [Fits, phase] at fits
      exact fits
  | withdraw phase =>
      simp only [Fits, phase] at fits
      refine MayMove.fits_announce (.abort fits.1.not_restored ?_ bound)
      rw [fits.2.1]
      rfl
  | launch phase | finish phase =>
      simp only [Fits, phase] at fits
      exact fits
  | obey phase =>
      simp only [Fits, phase] at fits
      refine MayMove.fits_announce (.abort fits.1.not_restored ?_ bound)
      rw [fits.2.1]
      rfl
  | succeed phase =>
      simp only [Fits, phase] at fits
      exact MayMove.fits_announce (.succeed fits.1 fits.2.1 fits.2.2.1 bound)
  | exhaust phase | fail phase =>
      simp only [Fits, phase] at fits
      exact MayMove.fits_announce (.fail fits.1 fits.2.1 fits.2.2.1 bound)
  | retry phase _ _ left =>
      simp only [Fits, phase] at fits
      have below : runner.attempts < runner.task.attemptLimit :=
        Nat.lt_of_lt_of_le left (Nat.le_max_right 1 runner.task.maxAttempts)
      exact MayMove.fits_announce (.retry fits.1 fits.2.1 fits.2.2.1 below)
  | announce phase =>
      simp only [Fits, phase] at fits
      exact fits.of_phase _
  | publish phase =>
      simp only [Fits, phase] at fits
      exact fits.fits_published
  | release phase | wake phase =>
      simp only [Fits, phase] at fits
      exact fits
  | leave phase =>
      simp only [Fits, phase] at fits
      exact fits

/-- Nothing that happens to a runner takes it out of a terminal state. -/
theorem state_of_terminal (fits : runner.Fits) (terminal : runner.state.isTerminal = true)
    (act : runner.Act handle? scene step next after) : next.state = runner.state := by
  have ended := fits.ended_of_terminal terminal
  cases act with
  | publish phase =>
      rw [phase] at ended
      rcases ended with leaving | gone
      · cases leaving
      · cases gone
  | _ => rfl

end Fits

end Runner

end JobGraph
