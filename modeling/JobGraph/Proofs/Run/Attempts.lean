import JobGraph.Proofs.Run.Dependencies
import JobGraph.Proofs.Run.Forecast

/-!
# What attempts lead to

In a course whose attempts end as `kinds` tells, a runner that is about to make another attempt has
seen only plain failures, and the end that it claims is the verdict of the attempts.  Once the run
is told to stop, an attempt may also end aborted, and a runner may end so at any time.

From this and from what runners know of their dependencies follows `foretold`: what a runner claims
at its end is what the forecast says of its task.
-/

namespace JobGraph

/-- The steps in which attempts end as `kinds` tells; a stopped run may abort them. -/
def Run.Follows (kinds : String → Nat → AttemptKind) (run : Run) : Step → Prop
  | .ended name result => ∀ runner, run.find? name = some runner →
    result.kind = kinds name runner.attempts ∨
      run.scene.cancelled = true ∧ result.kind = .abort
  | _ => True

namespace Runner

/-- All attempts below a number were plain failures. -/
def FailedBelow (kind : Nat → AttemptKind) (attempt : Nat) : Prop :=
  ∀ earlier, 1 ≤ earlier → earlier < attempt → kind earlier = .failure

/-- What makes a task that takes part in the run end in a state. -/
def Earned (kind : Nat → AttemptKind) (stopped : Prop) (runner : Runner) : TaskState → Prop
  | .completed => runner.IsFresh ∧ runner.task.verdict kind = .completed
  | .failed => runner.IsFresh ∧ runner.task.verdict kind = .failed
  | .aborted => stopped ∨ runner.IsFresh ∧ runner.task.verdict kind = .aborted
  | .skip => runner.seed = .skip
  | _ => True

/-- What the attempts of a runner have shown, by its phase. -/
def Tried (kind : Nat → AttemptKind) (stopped : Prop) (runner : Runner) : Prop :=
  match runner.phase with
  | .ready | .arrived | .waiting _ _ => True
  | .asking | .queued | .pausing | .resting _ => FailedBelow kind (runner.attempts + 1)
  | .launching | .attempting => FailedBelow kind runner.attempts
  | .reported result => FailedBelow kind runner.attempts ∧
    (result.kind = kind runner.attempts ∨ stopped ∧ result.kind = .abort)
  | .announcing target next | .publishing target next =>
    (next = .launch → FailedBelow kind runner.attempts) ∧
      (next = .pause → FailedBelow kind (runner.attempts + 1)) ∧
        (¬runner.IsRestored → runner.Earned kind stopped target)
  | .leaving | .gone => ¬runner.IsRestored → runner.Earned kind stopped runner.state

variable {kind : Nat → AttemptKind} {stopped later : Prop} {runner next : Runner}
  {handle? : String → Option Handle} {scene after : Scene} {step : Step}

theorem FailedBelow.succ {attempt : Nat} (failed : FailedBelow kind attempt)
    (again : kind attempt = .failure) : FailedBelow kind (attempt + 1) := by
  intro earlier positive below
  rcases Nat.lt_succ_iff_lt_or_eq.1 below with before | same
  · exact failed earlier positive before
  · exact same ▸ again

theorem Earned.mono (told : stopped → later) {state : TaskState}
    (earned : runner.Earned kind stopped state) : runner.Earned kind later state := by
  cases state with
  | aborted => exact earned.imp told id
  | init | pending | running | completed | failed | defaulted | skip => exact earned

/-- What attempts have shown stays shown when the run is stopped. -/
theorem Tried.mono (told : stopped → later) (tried : runner.Tried kind stopped) :
    runner.Tried kind later := by
  cases phase : runner.phase with
  | reported result =>
      simp only [Tried, phase] at tried ⊢
      exact ⟨tried.1, tried.2.imp id (And.imp_left told)⟩
  | announcing target further | publishing target further =>
      simp only [Tried, phase] at tried ⊢
      exact ⟨tried.1, tried.2.1, fun seed => (tried.2.2 seed).mono told⟩
  | leaving | gone =>
      simp only [Tried, phase] at tried ⊢
      exact fun seed => (tried seed).mono told
  | _ =>
      simp only [Tried, phase] at tried ⊢
      try exact tried

theorem tried_announce {target : TaskState} (earned : runner.Earned kind stopped target) :
    (runner.announce target .leave).Tried kind stopped :=
  ⟨fun same => (by cases same), fun same => (by cases same), fun _ => earned⟩

/-- Whatever happens to a runner, its end is what its attempts make of it. -/
theorem Tried.act (tried : runner.Tried kind (scene.cancelled = true)) (fits : runner.Fits)
    (ends : ∀ result, step = .ended runner.name result →
      result.kind = kind runner.attempts ∨ scene.cancelled = true ∧ result.kind = .abort)
    (act : runner.Act handle? scene step next after) :
    next.Tried kind (scene.cancelled = true) := by
  cases act with
  | restore phase seed =>
      exact ⟨fun same => (by cases same), fun same => (by cases same),
        fun notRestored => absurd ⟨_, seed⟩ notRestored⟩
  | start phase =>
      exact ⟨fun same => (by cases same), fun same => (by cases same), fun _ => trivial⟩
  | stop phase seed stopped => exact tried_announce (Or.inl stopped)
  | withdraw phase stopped => exact tried_announce (Or.inl stopped)
  | arrive | hear | miss => trivial
  | giveUp phase => exact tried_announce trivial
  | skip phase seed => exact tried_announce seed
  | clear phase seed =>
      simp only [Fits, phase] at fits
      intro earlier positive below
      change earlier < runner.attempts + 1 at below
      rw [fits.2.2] at below
      exact absurd (Nat.lt_of_le_of_lt positive below) (Nat.lt_irrefl 1)
  | pass phase | enter phase =>
      simp only [Tried, phase] at tried
      exact ⟨fun _ => tried, fun same => (by cases same), fun _ => trivial⟩
  | queue phase | launch phase | release phase | wake phase | announce phase | leave phase =>
      simp only [Tried, phase] at tried
      exact tried
  | finish phase =>
      simp only [Tried, phase] at tried
      exact ⟨tried, ends _ rfl⟩
  | obey phase aborted =>
      simp only [Tried, phase, AttemptResult.kind, aborted, if_true] at tried
      simp only [Fits, phase] at fits
      refine tried_announce (tried.2.symm.imp And.left fun told => ⟨fits.1, ?_⟩)
      rw [Task.verdict_of_kind fits.2.2.1 fits.2.2.2 tried.1 (by rw [← told]; decide)]
      simp only [Task.verdictFrom, ← told]
  | succeed phase heeded succeeded =>
      simp only [Tried, phase, AttemptResult.kind, heeded, succeeded, Bool.false_eq_true, if_false,
        reduceCtorEq, and_false, or_false] at tried
      simp only [Fits, phase] at fits
      refine tried_announce ⟨fits.1, ?_⟩
      rw [Task.verdict_of_kind fits.2.2.1 fits.2.2.2 tried.1 (by rw [← tried.2]; decide)]
      simp only [Task.verdictFrom, ← tried.2]
  | exhaust phase heeded failed last =>
      simp only [Tried, phase, AttemptResult.kind, heeded, failed, Bool.false_eq_true, if_false,
        if_true, reduceCtorEq, and_false, or_false] at tried
      simp only [Fits, phase] at fits
      have whole : runner.attempts = runner.task.attemptLimit := by
        have bound := fits.2.2
        unfold Task.attemptLimit at bound ⊢
        omega
      refine tried_announce ⟨fits.1, Task.verdict_of_all_failed ?_⟩
      intro earlier positive within
      exact tried.1.succ tried.2.symm earlier positive (by omega)
  | retry phase heeded failed =>
      simp only [Tried, phase, AttemptResult.kind, heeded, failed, Bool.false_eq_true, if_false,
        if_true, reduceCtorEq, and_false, or_false] at tried
      exact ⟨fun same => (by cases same), fun _ => tried.1.succ tried.2.symm, fun _ => trivial⟩
  | fail phase =>
      simp only [Tried, phase, AttemptResult.kind, reduceCtorEq, and_false, or_false] at tried
      simp only [Fits, phase] at fits
      refine tried_announce ⟨fits.1, ?_⟩
      rw [Task.verdict_of_kind fits.2.2.1 fits.2.2.2 tried.1 (by rw [← tried.2]; decide)]
      simp only [Task.verdictFrom, ← tried.2]
  | publish phase =>
      rename_i target further
      simp only [Tried, phase] at tried
      cases further with
      | wait => trivial
      | launch => exact tried.1 rfl
      | pause => exact tried.2.1 rfl
      | leave => exact tried.2.2

end Runner

/-! ## All runners -/

namespace Run

variable {graph : Graph} {seeds : KeyMap Seed} {kinds : String → Nat → AttemptKind}
  {run next : Run} {step : Step}

/-- Every runner stands where its attempts have brought it. -/
def Judged (kinds : String → Nat → AttemptKind) (run : Run) : Prop :=
  ∀ name runner, run.find? name = some runner →
    runner.Tried (kinds name) (run.scene.cancelled = true)

theorem Judged.start {limit : Nat} {store : Store} {cancelled keeps saves : Bool}
    {slot : Option Snapshot} :
    Judged kinds (start graph limit seeds store cancelled keeps saves slot) := by
  intro name runner found
  obtain ⟨task, _, same⟩ := List.mem_map.1 (mem_of_find? found)
  cases same
  trivial

/-- No step of a run makes a runner end otherwise than its attempts do. -/
theorem Judged.change (judged : Judged kinds run) (orderly : Orderly graph seeds run)
    (follows : run.Follows kinds step) (change : run.Change step next) : Judged kinds next := by
  cases change with
  | act found act =>
      rename_i before runner scene
      have ends : ∀ result, step = .ended before.name result →
          result.kind = kinds before.name before.attempts ∨
            run.scene.cancelled = true ∧ result.kind = .abort := by
        rintro result rfl
        exact follows before found
      intro name other otherFound
      simp only [act.cancelled]
      rcases found_act found act.name otherFound with ⟨rfl, rfl⟩ | ⟨_, earlier⟩
      · exact (judged _ _ found).act (orderly.fits found) ends act
      · exact judged name other earlier
  | line | aggregate => exact judged
  | cancel =>
      intro name other otherFound
      exact (judged name other otherFound).mono fun _ => rfl
  | aside runners scene aggregator =>
      intro name other otherFound
      rw [scene]
      exact judged name other (find?_of_runners runners ▸ otherFound)

/-- The invariants of a run whose attempts end as `kinds` tells. -/
structure Regular (graph : Graph) (seeds : KeyMap Seed) (kinds : String → Nat → AttemptKind)
    (run : Run) : Prop where
  orderly : Orderly graph seeds run
  careful : Careful run
  judged : Judged kinds run

namespace Regular

theorem start {limit : Nat} {store : Store} {cancelled keeps saves : Bool}
    {slot : Option Snapshot} :
    Regular graph seeds kinds (start graph limit seeds store cancelled keeps saves slot) :=
  ⟨Orderly.start, Careful.start, Judged.start⟩

theorem change (regular : Regular graph seeds kinds run) (sound : graph.Sound)
    (restores : seeds.RestoresCleared) (follows : run.Follows kinds step)
    (change : run.Change step next) : Regular graph seeds kinds next :=
  ⟨regular.orderly.change change, regular.careful.change regular.orderly sound restores change,
    regular.judged.change regular.orderly follows change⟩

theorem course {allowed : Run → Step → Prop} {first : Run} {steps : List Step}
    (start : Regular graph seeds kinds first) (sound : graph.Sound)
    (restores : seeds.RestoresCleared)
    (follows : ∀ {run step}, allowed run step → run.Follows kinds step)
    (course : Course allowed first steps run) : Regular graph seeds kinds run :=
  course.invariant start fun regular fits change =>
    regular.change sound restores (follows fits) change

/-- What a runner claims at its end, its attempts and its dependencies have brought about. -/
theorem reasons (regular : Regular graph seeds kinds run) {name : String} {runner : Runner}
    (found : run.find? name = some runner) (ended : runner.claimed.isTerminal = true) :
    runner.seed = .restored runner.claimed ∨
      ¬runner.IsRestored ∧ runner.Warranted run runner.claimed ∧
        runner.Earned (kinds name) (run.scene.cancelled = true) runner.claimed := by
  have fits := regular.orderly.fits found
  have informed := regular.careful name runner found
  have tried := regular.judged name runner found
  rcases fits.end_cases ended with ⟨target, further, same, may, phase⟩ | ⟨same, phase⟩
  · rw [same]
    by_cases restored : runner.IsRestored
    · obtain ⟨state, seed⟩ := restored
      exact Or.inl (may.target_of_restored seed ▸ seed)
    · right
      rcases phase with phase | phase
      all_goals
        simp only [Runner.Informed, phase] at informed
        simp only [Runner.Tried, phase] at tried
        exact ⟨restored, informed.1 restored, tried.2.2 restored⟩
  · rw [same]
    rcases phase with phase | phase
    all_goals
      simp only [Runner.Fits, phase] at fits
      simp only [Runner.Informed, phase] at informed
      simp only [Runner.Tried, phase] at tried
      by_cases restored : runner.IsRestored
      · exact Or.inl (fits.1 restored)
      · exact Or.inr ⟨restored, informed restored, tried restored⟩

/-- What a runner claims at its end is what the forecast says of its task.  In a run that is told to
stop this holds only of tasks that were completed or skipped. -/
theorem foretold (regular : Regular graph seeds kinds run) (sound : graph.Sound) :
    ∀ name ∈ graph.names, ∀ runner, run.find? name = some runner →
      runner.claimed.isTerminal = true →
      run.scene.cancelled = false ∨ runner.claimed.Clears →
        (graph.forecast seeds kinds).find? name = some runner.claimed := by
  refine sound.induct (P := fun name => ∀ runner, run.find? name = some runner →
    runner.claimed.isTerminal = true → run.scene.cancelled = false ∨ runner.claimed.Clears →
      (graph.forecast seeds kinds).find? name = some runner.claimed) ?_
  intro task member inductionHypothesis runner found ended reliable
  obtain ⟨_, seed⟩ := regular.orderly.staffed found
  have isTask : runner.task = task :=
    sound.task_unique (regular.orderly.staffed found).1 member (name_of_find? found)
  -- A published end is claimed for good, so the forecast of the dependency is known.
  have published : ∀ dependency ∈ task.dependsOn, ∀ other, run.find? dependency = some other →
      other.state.isTerminal = true → run.scene.cancelled = false ∨ other.state.Clears →
        (graph.forecast seeds kinds).find? dependency = some other.state := by
    intro dependency depends other otherFound otherEnded otherReliable
    have same := (regular.orderly.fits otherFound).claimed_of_terminal otherEnded
    rw [← same] at otherEnded otherReliable ⊢
    exact inductionHypothesis dependency depends other otherFound otherEnded otherReliable
  have cleared : runner.IsCleared run → ∀ dependency ∈ task.dependsOn, ∃ state,
      (graph.forecast seeds kinds).find? dependency = some state ∧
        state.blocksDependents = false := by
    intro clear dependency depends
    obtain ⟨other, otherFound, clears⟩ := clear dependency (isTask.symm ▸ depends)
    refine ⟨other.state, published dependency depends other otherFound clears.isTerminal
      (Or.inr clears), ?_⟩
    rcases clears with completed | skipped
    · rw [completed]
      rfl
    · rw [skipped]
      rfl
  rw [Graph.forecast_eq sound member]
  rcases regular.reasons found ended with restored | ⟨notRestored, warranted, earned⟩
  · rw [Task.foretell_of_restored (seed.symm.trans restored)]
  · have fresh : runner.IsFresh → runner.IsCleared run →
        task.foretell seeds kinds (graph.forecast seeds kinds) =
          runner.task.verdict (kinds task.name) := by
      rintro ⟨isRestart, isFresh⟩ clear
      rw [Task.foretell_of_cleared (cleared clear), ← seed, isFresh, isTask]
    congr 1
    cases claimed : runner.claimed with
    | init | pending | running =>
        rw [claimed] at ended
        cases ended
    | completed | failed =>
        rw [claimed] at warranted earned
        rw [fresh earned.1 warranted]
        exact earned.2
    | defaulted =>
        rw [claimed] at warranted reliable
        obtain ⟨dependency, depends, other, otherFound, blocks⟩ := warranted
        have going : run.scene.cancelled = false := by
          rcases reliable with going | completed | skipped
          · exact going
          · cases completed
          · cases skipped
        have depends := isTask ▸ depends
        have told := published dependency depends other otherFound
          (TaskState.isTerminal_of_blocks blocks) (Or.inl going)
        apply Task.foretell_of_blocked depends told blocks
        intro state restored
        exact notRestored ⟨state, seed.trans restored⟩
    | aborted =>
        rw [claimed] at warranted earned reliable
        have going : ¬run.scene.cancelled = true := by
          rcases reliable with going | completed | skipped
          · rw [going]
            exact Bool.false_ne_true
          · cases completed
          · cases skipped
        have earned := earned.resolve_left going
        rw [fresh earned.1 (warranted.resolve_left going)]
        exact earned.2
    | skip =>
        rw [claimed] at warranted earned
        have skipped : seedOf seeds task.name = .skip := seed.symm.trans earned
        rw [Task.foretell_of_cleared (cleared warranted), skipped]

end Regular

end Run

end JobGraph
