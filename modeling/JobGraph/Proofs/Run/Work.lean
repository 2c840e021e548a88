import JobGraph.Proofs.Run.Records
import Mathlib.Algebra.GroupWithZero.Nat
import Mathlib.Algebra.Order.BigOperators.Group.List
import Mathlib.Algebra.Order.Group.Nat

/-!
# The work that is left

`Runner.work` counts the steps that a runner can still take, as if each attempt that is left were
made and failed.  Whatever happens to a runner lowers it, and sends at most one event.  So twice the
work of all runners, with the events that are not taken yet and what the aggregator has to do at its
end, goes down with every step of work.
-/

namespace JobGraph

/-- The steps in which a runner or the aggregator goes on, or an attempt or a pause ends. -/
def Step.IsWork : Step → Prop
  | .runner _ | .overtaken _ | .ended _ _ | .rested _ | .aggregator => True
  | .line _ _ _ | .cancel | .tick | .saver _ | .conductor _ => False

/-- The steps that the aggregator has left once there are no more events. -/
def AggregatorPhase.work : AggregatorPhase → Nat
  | .serving => 2
  | .draining => 1
  | .ended => 0

/-- The work left of a runner that is about to publish a state, by what comes after it, by the
attempts that are left and by the number of dependencies. -/
def Next.work (left dependencies : Nat) : Next → Nat
  | .leave => 2
  | .pause => 11 * left + 13
  | .launch => 11 * left + 18
  | .wait => 11 * left + 13 + dependencies

namespace Runner

/-- The attempts that are left. -/
def attemptsLeft (runner : Runner) : Nat := runner.task.attemptLimit - runner.attempts

/-- The work left of a runner. -/
def work (runner : Runner) : Nat :=
  match runner.phase with
  | .gone => 0
  | .leaving => 1
  | .publishing _ next => next.work runner.attemptsLeft runner.task.dependsOn.length
  | .announcing _ next => next.work runner.attemptsLeft runner.task.dependsOn.length + 1
  | .queued => 11 * runner.attemptsLeft + 9
  | .asking => 11 * runner.attemptsLeft + 10
  | .resting _ => 11 * runner.attemptsLeft + 11
  | .pausing => 11 * runner.attemptsLeft + 12
  | .reported _ => 11 * runner.attemptsLeft + 15
  | .attempting => 11 * runner.attemptsLeft + 16
  | .launching => 11 * runner.attemptsLeft + 17
  | .waiting rest _ => 11 * runner.attemptsLeft + 11 + rest.length
  | .arrived => 11 * runner.attemptsLeft + 12 + runner.task.dependsOn.length
  | .ready => 11 * runner.attemptsLeft + 15 + runner.task.dependsOn.length

variable {handle? : String → Option Handle} {runner next : Runner} {scene after : Scene}
  {step : Step}

@[simp]
theorem work_announce_leave (target : TaskState) : (runner.announce target .leave).work = 3 := rfl

/-- An attempt that is entered uses up one that was left. -/
theorem work_enterAttempt (left : runner.attempts < runner.task.attemptLimit) :
    runner.enterAttempt.work < 11 * runner.attemptsLeft + 9 := by
  change 11 * (runner.task.attemptLimit - (runner.attempts + 1)) + 18 + 1 < _
  unfold attemptsLeft
  omega

/-- Whatever happens to a runner leaves it less to do. -/
theorem Act.work_lt (act : runner.Act handle? scene step next after) (fits : runner.Fits) :
    next.work < runner.work := by
  cases act with
  | stop heeds =>
      rw [Runner.abort, work_announce_leave]
      cases phase : runner.phase with
      | ready | arrived | waiting | asking | resting | reported =>
          simp only [work, phase]
          omega
      | _ => simp [Phase.heedsStop, phase] at heeds
  | pass phase =>
      have entered : runner.enterAttempt.work < 11 * runner.attemptsLeft + 9 := by
        simp only [Fits, phase] at fits
        exact work_enterAttempt fits.2.2
      simp only [work, phase] at entered ⊢
      omega
  | enter phase =>
      have entered : runner.enterAttempt.work < 11 * runner.attemptsLeft + 9 := by
        simp only [Fits, phase] at fits
        exact work_enterAttempt fits.2.2
      simp only [work, phase] at entered ⊢
      exact entered
  | publish phase =>
      rename_i target further
      cases further <;> simp only [work, phase, Next.phase, Next.work, attemptsLeft] <;> omega
  | restore phase | start phase | arrive phase | hear phase | miss phase | giveUp phase | skip phase
  | clear phase | queue phase | withdraw phase | launch phase | finish phase | obey phase
  | succeed phase | exhaust phase | retry phase | fail phase | announce phase | release phase
  | wake phase | leave phase =>
      simp only [work, phase, Runner.announce, Runner.abort, Next.work, attemptsLeft,
        List.length_cons]
      omega

/-- A step of a runner sends at most one event. -/
theorem Act.events_length_le (act : runner.Act handle? scene step next after) :
    after.events.length ≤ scene.events.length + 1 := by
  rcases act.events with ⟨_, same | ⟨line, more⟩⟩ | ⟨target, further, _, _, more⟩
  · rw [same]
    exact Nat.le_succ _
  · rw [more, List.length_append, List.length_singleton]
  · rw [more, List.length_append, List.length_singleton]

end Runner

namespace Aggregator

/-- The steps that the aggregator has left if it is to come to its end and nothing more is sent. -/
def workLeft (events : List Event) (aggregator : Aggregator) : Nat :=
  events.length - aggregator.taken + aggregator.phase.work

theorem workLeft_lt {events : List Event} {closed complete : Bool} {aggregator next : Aggregator}
    (taken : aggregator.step? events closed complete = some next) :
    next.workLeft events < aggregator.workLeft events := by
  unfold workLeft
  rcases step?_cases taken with ⟨event, there, _, rfl⟩ | ⟨_, phase, rfl⟩ | ⟨_, phase, _, rfl⟩
  · have inside := (List.getElem?_eq_some_iff.1 there).1
    rw [take_taken, take_phase]
    omega
  · rw [phase]
    exact Nat.lt_succ_self _
  · rw [phase]
    exact Nat.lt_succ_self _

end Aggregator

namespace Run

variable {graph : Graph} {seeds : KeyMap Seed} {run next : Run} {step : Step}

/-- The work left of all runners. -/
def load (run : Run) : Nat := (run.runners.map Runner.work).sum

/-- The steps left of the runners, with the events that they send, and of the aggregator. -/
def remaining (run : Run) : Nat :=
  2 * run.load + (run.scene.events.length - run.aggregator.taken) + run.aggregator.phase.work

theorem load_put_lt {before runner : Runner} (distinct : (run.runners.map Runner.name).Nodup)
    (found : run.find? before.name = some before) (same : runner.name = before.name)
    (less : runner.work < before.work) : (run.put runner).load < run.load := by
  have only : ∀ other ∈ run.runners, other.name = runner.name → other = before := by
    intro other member named
    exact List.inj_on_of_nodup_map distinct member (mem_of_find? found) (named.trans same)
  rw [load, load, put, List.map_map]
  apply List.sum_lt_sum
  · intro other member
    rw [Function.comp_apply]
    by_cases here : other.name = runner.name
    · rw [if_pos here, only other member here]
      exact Nat.le_of_lt less
    · rw [if_neg here]
  · refine ⟨before, mem_of_find? found, ?_⟩
    rw [Function.comp_apply, if_pos same.symm]
    exact less

private theorem Orderly.remaining_lt_of_act (orderly : Orderly graph seeds run)
    (sound : graph.Sound)
    {before runner : Runner} {scene : Scene} (found : run.find? before.name = some before)
    (act : before.Act run.handle? run.scene step runner scene) :
    ({ run.put runner with scene } : Run).remaining < run.remaining := by
  have distinct := orderly.distinct sound
  have less : (run.put runner).load < run.load :=
    load_put_lt distinct found act.name (act.work_lt (orderly.fits found))
  have sent := act.events_length_le
  have taken := orderly.taken
  change 2 * (run.put runner).load + (scene.events.length - run.aggregator.taken) +
    run.aggregator.phase.work < run.remaining
  unfold remaining
  omega

private theorem remaining_lt_of_aggregate {aggregator : Aggregator}
    (taken : run.aggregator.step? run.scene.events run.isQuiet run.complete = some aggregator) :
    ({ run with aggregator } : Run).remaining < run.remaining := by
  have less := Aggregator.workLeft_lt taken
  change 2 * run.load + (run.scene.events.length - aggregator.taken) + aggregator.phase.work <
    run.remaining
  unfold remaining
  unfold Aggregator.workLeft at less
  omega

/-- Every step of work brings the run nearer to its end. -/
theorem Orderly.remaining_lt (orderly : Orderly graph seeds run) (sound : graph.Sound)
    (work : step.IsWork) (change : run.Change step next) : next.remaining < run.remaining := by
  cases change with
  | act found act => exact orderly.remaining_lt_of_act sound found act
  | aggregate taken => exact remaining_lt_of_aggregate taken
  | line | cancel => exact absurd work id
  | aside _ _ _ aside => cases step <;> first | exact absurd work id | exact absurd aside id

end Run

end JobGraph
