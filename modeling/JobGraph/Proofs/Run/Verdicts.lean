import JobGraph.Proofs.Run.Progress
import Mathlib.Data.Nat.Find

/-!
# The attempt that decides

A task that takes part in a run and is let run by its dependencies is attempted until an attempt
does not simply fail, or until no attempt is left.  Which attempt that is can be told from how the
attempts end, and it tells the end of the task.  `Runner.Weighed` says of a runner that has come to
the end of its way that the last attempt it has counted is that one.
-/

namespace JobGraph

/-- The state of a task whose last attempt ended in a way. -/
def AttemptKind.ending : AttemptKind → TaskState
  | .success => .completed
  | .failure | .error => .failed
  | .abort => .aborted

theorem AttemptKind.ending_ne_defaulted (kind : AttemptKind) : kind.ending ≠ .defaulted := by
  cases kind <;> decide

namespace Task

variable {task : Task} {kind : Nat → AttemptKind} {number other : Nat}

/-- The attempt of a number is the first one that does not simply fail, or the last of all. -/
structure DecidedBy (task : Task) (kind : Nat → AttemptKind) (number : Nat) : Prop where
  positive : 1 ≤ number
  within : number ≤ task.attemptLimit
  earlier : Runner.FailedBelow kind number
  last : kind number ≠ .failure ∨ number = task.attemptLimit

theorem DecidedBy.le (decided : task.DecidedBy kind number) (positive : 1 ≤ other)
    (last : kind other ≠ .failure ∨ other = task.attemptLimit) : number ≤ other := by
  by_contra later
  rcases last with different | whole
  · exact different (decided.earlier other positive (Nat.lt_of_not_le later))
  · exact later (whole ▸ decided.within)

theorem DecidedBy.unique (first : task.DecidedBy kind number) (second : task.DecidedBy kind other) :
    number = other :=
  Nat.le_antisymm (first.le second.positive second.last) (second.le first.positive first.last)

theorem exists_decidedBy (task : Task) (kind : Nat → AttemptKind) :
    ∃ number, task.DecidedBy kind number := by
  -- The last attempt of all decides if no other does, so there is a least one that does.
  have some : ∃ number, 1 ≤ number ∧ (kind number ≠ .failure ∨ number = task.attemptLimit) :=
    ⟨task.attemptLimit, Runner.attemptLimit_pos task, Or.inr rfl⟩
  obtain ⟨positive, last⟩ := Nat.find_spec some
  refine ⟨Nat.find some, positive, ?_, ?_, last⟩
  · exact Nat.find_min' some ⟨Runner.attemptLimit_pos task, Or.inr rfl⟩
  · intro earlier first below
    by_contra different
    exact Nat.find_min some below ⟨first, Or.inl different⟩

theorem DecidedBy.verdict (decided : task.DecidedBy kind number) :
    task.verdict kind = (kind number).ending := by
  by_cases failed : kind number = .failure
  · have whole : number = task.attemptLimit :=
      decided.last.resolve_left fun different => different failed
    rw [failed]
    apply verdict_of_all_failed
    intro earlier positive within
    exact decided.earlier.succ failed earlier positive (by omega)
  · rw [verdict_of_kind decided.positive decided.within decided.earlier failed]
    cases ends : kind number with
    | failure => exact absurd ends failed
    | success | abort | error => simp only [verdictFrom, ends, AttemptKind.ending]

theorem verdict_ne_defaulted (task : Task) (kind : Nat → AttemptKind) :
    task.verdict kind ≠ .defaulted := by
  obtain ⟨number, decided⟩ := task.exists_decidedBy kind
  rw [decided.verdict]
  exact (kind number).ending_ne_defaulted

end Task

namespace Runner

variable {kind : Nat → AttemptKind} {runner next : Runner} {handle? : String → Option Handle}
  {scene after : Scene} {step : Step} {target : TaskState}

/-- The state is the one that the attempts have led to, or there were none because of a
dependency. -/
def Concludes (kind : Nat → AttemptKind) (runner : Runner) (target : TaskState) : Prop :=
  target = .defaulted ∧ runner.attempts = 0 ∨
    runner.task.DecidedBy kind runner.attempts ∧ target = (kind runner.attempts).ending

theorem Concludes.attempts_eq {other : Runner} (first : runner.Concludes kind target)
    (second : other.Concludes kind target) (same : other.task = runner.task) :
    runner.attempts = other.attempts := by
  rcases first with ⟨defaulted, none⟩ | ⟨decided, ends⟩
  · rcases second with ⟨_, nothing⟩ | ⟨_, ends⟩
    · exact none.trans nothing.symm
    · exact absurd (ends.symm.trans defaulted) (AttemptKind.ending_ne_defaulted _)
  · rcases second with ⟨defaulted, _⟩ | ⟨again, _⟩
    · exact absurd (ends.symm.trans defaulted) (AttemptKind.ending_ne_defaulted _)
    · exact decided.unique (same ▸ again)

/-- A runner that takes part in the run ends by what its attempts have led to, and pauses only after
an attempt. -/
def Weighed (kind : Nat → AttemptKind) (runner : Runner) : Prop :=
  runner.IsFresh →
    match runner.phase with
    | .pausing | .resting _ => 1 ≤ runner.attempts
    | .announcing target next | .publishing target next =>
      next = .leave →
        runner.Concludes kind target ∧ (target = .defaulted ∨ runner.state = .running)
    | .leaving | .gone => runner.Concludes kind runner.state
    | _ => True

/-- As long as nobody stops the run, attempts come back as is foreseen. -/
theorem Tried.reported {result : AttemptResult} (tried : runner.Tried kind (scene.cancelled = true))
    (going : scene.cancelled = false) (phase : runner.phase = .reported result) :
    FailedBelow kind runner.attempts ∧ result.kind = kind runner.attempts := by
  simp only [Tried, phase, going, Bool.false_eq_true, false_and, or_false] at tried
  exact tried

theorem weighed_judged {result : AttemptResult} (fits : runner.Fits)
    (tried : runner.Tried kind (scene.cancelled = true)) (going : scene.cancelled = false)
    (phase : runner.phase = .reported result)
    (last : result.kind ≠ .failure ∨ runner.attempts = runner.task.attemptLimit)
    (ends : target = result.kind.ending) : (runner.announce target .leave).Weighed kind := by
  intro _ _
  simp only [Fits, phase] at fits
  obtain ⟨earlier, same⟩ := tried.reported going phase
  rw [same] at last ends
  exact ⟨Or.inr ⟨⟨fits.2.2.1, fits.2.2.2, earlier, last⟩, ends⟩, Or.inr fits.2.1⟩

/-- What a runner claims at its end is what its attempts have led to. -/
theorem Weighed.concludes (weighed : runner.Weighed kind) (fits : runner.Fits)
    (fresh : runner.IsFresh) (ended : runner.claimed.isTerminal = true) :
    runner.Concludes kind runner.claimed := by
  have here := weighed fresh
  rcases fits.end_cases ended with ⟨target, further, same, may, phase⟩ | ⟨same, phase⟩
  · rw [same] at ended ⊢
    have leaves := may.leaves ended
    rcases phase with phase | phase
    all_goals
      simp only [phase] at here
      exact (here leaves).1
  · rw [same]
    rcases phase with phase | phase
    all_goals
      simp only [phase] at here
      exact here

theorem Weighed.act (weighed : runner.Weighed kind) (fits : runner.Fits)
    (tried : runner.Tried kind (scene.cancelled = true)) (going : scene.cancelled = false)
    (act : runner.Act handle? scene step next after) : next.Weighed kind := by
  cases act with
  | restore phase seed =>
      intro fresh
      exact absurd ⟨_, seed⟩ (IsFresh.not_restored fresh)
  | skip phase seed =>
      intro fresh
      exact absurd seed (IsFresh.not_skipped fresh)
  | stop _ _ stopped | withdraw _ stopped => cases going.symm.trans stopped
  | start | retry | pass | enter =>
      intro _ same
      cases same
  | arrive | hear | miss | clear | queue | launch | finish | wake =>
      intro _
      trivial
  | giveUp phase =>
      intro _ _
      simp only [Fits, phase] at fits
      exact ⟨Or.inl ⟨rfl, fits.2.2⟩, Or.inl rfl⟩
  | obey phase aborted =>
      apply weighed_judged fits tried going phase <;>
        simp [AttemptResult.kind, AttemptKind.ending, aborted]
  | succeed phase heeded succeeded =>
      apply weighed_judged fits tried going phase <;>
        simp [AttemptResult.kind, AttemptKind.ending, heeded, succeeded]
  | exhaust phase heeded failed last =>
      -- The runner goes by the number that it was given, which may be zero.
      have bound := fits.attempts_le
      have whole : runner.attempts = runner.task.attemptLimit := by
        simp only [Fits, phase] at fits
        unfold Task.attemptLimit at bound ⊢
        omega
      apply weighed_judged fits tried going phase (Or.inr whole)
      simp [AttemptResult.kind, AttemptKind.ending, heeded, failed]
  | fail phase =>
      apply weighed_judged fits tried going phase <;> simp [AttemptResult.kind, AttemptKind.ending]
  | announce phase | release phase | leave phase =>
      intro fresh
      have before := weighed fresh
      simp only [phase] at before
      exact before
  | publish phase =>
      rename_i further
      intro fresh
      have before := weighed fresh
      simp only [phase] at before
      cases further with
      | wait | launch => trivial
      | pause =>
          simp only [Fits, phase] at fits
          cases fits with
          | retry _ _ some => exact some
      | leave => exact (before rfl).1

end Runner

namespace Run

variable {graph : Graph} {seeds : KeyMap Seed} {kinds : String → Nat → AttemptKind}
  {run next : Run} {step : Step}

/-- What is true of a run that nobody stops, whatever it takes over. -/
structure Decided (graph : Graph) (seeds : KeyMap Seed) (kinds : String → Nat → AttemptKind)
    (run : Run) : Prop where
  orderly : Orderly graph seeds run
  judged : Judged kinds run
  permitted : Permitted run
  blaming : Blaming run
  going : run.scene.cancelled = false
  weighed : ∀ name runner, run.find? name = some runner → runner.Weighed (kinds name)

/-- There is an end to the work of a run, and then the runner of the task is gone. -/
def Finishes (kinds : String → Nat → AttemptKind) (run : Run) (name : String) : Prop :=
  ∃ bound, ∀ steps last, Course (Working kinds) run steps last →
    steps.length ≤ bound ∧
      ((∀ step, last.Working kinds step → last.step? step = none) →
        ∃ runner, last.find? name = some runner ∧ runner.isGone = true)

namespace Decided

theorem start {limit : Nat} {store : Store} {keeps saves : Bool} {slot : Option Snapshot} :
    Decided graph seeds kinds (start graph limit seeds store false keeps saves slot) := by
  refine ⟨Orderly.start, Judged.start, Permitted.start, Blaming.start, rfl, ?_⟩
  intro name runner found
  obtain ⟨task, _, same⟩ := List.mem_map.1 (mem_of_find? found)
  cases same
  exact fun _ => trivial

theorem change (decided : Decided graph seeds kinds run) (sound : graph.Sound)
    (undisturbed : run.Undisturbed kinds step) (change : run.Change step next) :
    Decided graph seeds kinds next := by
  refine ⟨decided.orderly.change change,
    decided.judged.change decided.orderly undisturbed.follows change,
    decided.permitted.change change, decided.blaming.change decided.orderly sound change,
    undisturbed.going change decided.going, ?_⟩
  cases change with
  | act found act =>
      intro name other otherFound
      rcases found_act found act.name otherFound with ⟨rfl, rfl⟩ | ⟨_, earlier⟩
      · exact (decided.weighed _ _ found).act (decided.orderly.fits found)
          (decided.judged _ _ found) decided.going act
      · exact decided.weighed name other earlier
  | line | aggregate | cancel => exact decided.weighed
  | aside runners =>
      intro name other otherFound
      exact decided.weighed name other (find?_of_runners runners ▸ otherFound)

theorem course {first : Run} {steps : List Step} (decided : Decided graph seeds kinds first)
    (sound : graph.Sound) (course : Course (Undisturbed kinds) first steps run) :
    Decided graph seeds kinds run :=
  course.invariant decided fun decided undisturbed change =>
    decided.change sound undisturbed change

theorem finishes (decided : Decided graph seeds kinds run) (sound : graph.Sound) {name : String}
    (listed : name ∈ graph.names) : run.Finishes kinds name := by
  refine ⟨run.remaining, ?_⟩
  intro steps last course
  have here := decided.course sound (course.mono And.left)
  have spent := decided.orderly.work_le sound course
  refine ⟨by omega, ?_⟩
  intro stuck
  obtain ⟨runner, found⟩ := here.orderly.exists_runner listed
  refine ⟨runner, found, ?_⟩
  rcases here.permitted.enabled_or_gone here.orderly sound fun found _ _ _ waiting =>
      ((here.blaming _ _ found).waits waiting).1 _ List.mem_cons_self with ⟨other, enabled⟩ | gone
  · have goes : CanGoOn kinds last := enabled.canGoOn
    obtain ⟨step, next, working, taken⟩ := goes
    rw [stuck step working] at taken
    cases taken
  · exact decide_eq_true (gone name listed runner found)

end Decided

end Run

end JobGraph
