import JobGraph.Run.Basic

/-!
# Courses of a run

`Course allowed first steps run` says that steps, each of them allowed where it is taken, lead from
one state of a run to another.  `Run.Change` lists what one step can do, and `Runner.Act` what it
can do to a runner and to what the runners share; every invariant of runs is shown over these two.
-/

namespace JobGraph

/-! ## What a runner does -/

/-- The phases in which a call to stop ends a runner at its next step and changes nothing else. -/
def Phase.heedsStop : Phase → Bool
  | .ready | .arrived | .asking | .resting _ | .reported (.error _) => true
  | .waiting rest _ => !rest.isEmpty
  | _ => false

theorem Phase.exists_resting {phase : Phase} (pauses : phase.pause?.isSome) :
    ∃ pause, phase = .resting pause := by
  cases phase with
  | resting pause => exact ⟨pause, rfl⟩
  | _ => cases pauses

/-- The steps in which a runner goes on by itself or wakes from a pause. -/
def Step.IsTurnOf (name : String) : Step → Prop
  | .runner other | .overtaken other | .rested other => other = name
  | _ => False

/-- The steps of those who only look on: the saver and the conductor. -/
def Step.IsAside : Step → Prop
  | .tick | .saver _ | .conductor _ => True
  | _ => False

namespace Runner

/-- Whether a task ended in an earlier run. -/
def IsRestored (runner : Runner) : Prop := ∃ state, runner.seed = .restored state

/-- What a step can do to a runner and to what the runners share. -/
inductive Act (handle? : String → Option Handle) (runner : Runner) (scene : Scene) :
    Step → Runner → Scene → Prop
  | restore {state : TaskState} (phase : runner.phase = .ready)
      (seed : runner.seed = .restored state) :
      Act handle? runner scene (.runner runner.name) (runner.announce state .leave) scene
  | start (phase : runner.phase = .ready) (seed : ¬runner.IsRestored)
      (going : scene.cancelled = false) :
      Act handle? runner scene (.runner runner.name) (runner.announce .pending .wait) scene
  | stop {step : Step} (phase : runner.phase.heedsStop = true)
      (seed : runner.phase = .ready → ¬runner.IsRestored) (stopped : scene.cancelled = true)
      (turn : step.IsTurnOf runner.name) : Act handle? runner scene step runner.abort scene
  | arrive (phase : runner.phase = .arrived) (going : scene.cancelled = false) :
      Act handle? runner scene (.runner runner.name)
        { runner with phase := .waiting runner.task.dependsOn true } scene
  | hear {step : Step} {dependency : String} {rest : List String} {good : Bool} {handle : Handle}
      {state : TaskState} (phase : runner.phase = .waiting (dependency :: rest) good)
      (known : handle? dependency = some handle) (settled : handle.settled? = some state)
      (turn : step.IsTurnOf runner.name) :
      Act handle? runner scene step
        { runner with phase := .waiting rest (good && !state.blocksDependents) } scene
  | miss {step : Step} {dependency : String} {rest : List String} {good : Bool}
      (phase : runner.phase = .waiting (dependency :: rest) good)
      (unknown : handle? dependency = none) (turn : step.IsTurnOf runner.name) :
      Act handle? runner scene step { runner with phase := .waiting rest false } scene
  | giveUp (phase : runner.phase = .waiting [] false) :
      Act handle? runner scene (.runner runner.name) (runner.announce .defaulted .leave) scene
  | skip (phase : runner.phase = .waiting [] true) (seed : runner.seed = .skip) :
      Act handle? runner scene (.runner runner.name) (runner.announce .skip .leave) scene
  | clear (phase : runner.phase = .waiting [] true) (seed : runner.seed ≠ .skip) :
      Act handle? runner scene (.runner runner.name) { runner with phase := .asking } scene
  | pass {step : Step} (phase : runner.phase = .asking)
      (granted : (scene.gate.acquire runner.name).holds runner.name = true)
      (turn : step.IsTurnOf runner.name) :
      Act handle? runner scene step runner.enterAttempt
        { scene with gate := scene.gate.acquire runner.name }
  | queue {step : Step} (phase : runner.phase = .asking)
      (denied : (scene.gate.acquire runner.name).holds runner.name = false)
      (turn : step.IsTurnOf runner.name) :
      Act handle? runner scene step { runner with phase := .queued }
        { scene with gate := scene.gate.acquire runner.name }
  | enter {step : Step} (phase : runner.phase = .queued)
      (granted : scene.gate.holds runner.name = true) (turn : step.IsTurnOf runner.name) :
      Act handle? runner scene step runner.enterAttempt scene
  | withdraw (phase : runner.phase = .queued) (stopped : scene.cancelled = true) :
      Act handle? runner scene (.runner runner.name) runner.abort (runner.withdraw scene)
  | launch (phase : runner.phase = .launching) :
      Act handle? runner scene (.runner runner.name) { runner with phase := .attempting }
        { scene with launches := scene.launches ++ [runner.request scene.store] }
  | finish {result : AttemptResult} (phase : runner.phase = .attempting) :
      Act handle? runner scene (.ended runner.name result)
        { runner with phase := .reported result } scene
  | obey {report : Report} (phase : runner.phase = .reported (.report report))
      (aborted : report.aborted = true) :
      Act handle? runner scene (.runner runner.name) runner.abort
        { scene with store := scene.store.merge report.writes }
  | succeed {report : Report} (phase : runner.phase = .reported (.report report))
      (heeded : report.aborted = false) (succeeded : report.failed = false) :
      Act handle? runner scene (.runner runner.name) (runner.announce .completed .leave)
        { scene with store := scene.store.merge report.writes }
  | exhaust {report : Report} (phase : runner.phase = .reported (.report report))
      (heeded : report.aborted = false) (failed : report.failed = true)
      (last : runner.task.maxAttempts ≤ runner.attempts) :
      Act handle? runner scene (.runner runner.name) (runner.announce .failed .leave)
        { scene with store := scene.store.merge report.writes }
  | retry {report : Report} (phase : runner.phase = .reported (.report report))
      (heeded : report.aborted = false) (failed : report.failed = true)
      (left : runner.attempts < runner.task.maxAttempts) :
      Act handle? runner scene (.runner runner.name) (runner.announce .pending .pause)
        { scene with store := scene.store.merge report.writes }
  | fail {error : Error} (phase : runner.phase = .reported (.error error))
      (going : scene.cancelled = false) :
      Act handle? runner scene (.runner runner.name) (runner.announce .failed .leave)
        (scene.send (.logged ⟨runner.name, .critical, error.message⟩))
  | announce {target : TaskState} {next : Next} (phase : runner.phase = .announcing target next) :
      Act handle? runner scene (.runner runner.name)
        { runner with phase := .publishing target next }
        (scene.send (.moved ⟨runner.name, runner.state, target⟩))
  | publish {target : TaskState} {next : Next} (phase : runner.phase = .publishing target next) :
      Act handle? runner scene (.runner runner.name)
        { runner with state := target, phase := next.phase } scene
  | release (phase : runner.phase = .pausing) :
      Act handle? runner scene (.runner runner.name)
        { runner with phase := .resting runner.task.backoff }
        { scene with gate := scene.gate.release runner.name }
  | wake {pause : Duration} (phase : runner.phase = .resting pause)
      (going : scene.cancelled = false) :
      Act handle? runner scene (.rested runner.name) { runner with phase := .asking } scene
  | leave (phase : runner.phase = .leaving) :
      Act handle? runner scene (.runner runner.name) { runner with phase := .gone }
        { scene with gate := scene.gate.release runner.name }

variable {handle? : String → Option Handle} {runner next : Runner} {scene after : Scene}
  {step : Step}

/-- A runner that has begun is ended by a call to stop wherever it heeds one. -/
theorem Act.stop_of_phase {phase : Phase} (here : runner.phase = phase)
    (heeds : phase.heedsStop = true) (begun : phase ≠ .ready) (stopped : scene.cancelled = true)
    (turn : step.IsTurnOf runner.name) : runner.Act handle? scene step runner.abort scene :=
  .stop (here ▸ heeds) (fun ready => absurd (here.symm.trans ready) begun) stopped turn

theorem act_of_step? (taken : runner.step? handle? scene = some (next, after)) :
    runner.Act handle? scene (.runner runner.name) next after := by
  cases phase : runner.phase with
  | ready =>
      simp only [step?, phase] at taken
      split at taken
      next state seed =>
        cases taken
        exact .restore phase seed
      next notRestored =>
        have seed : ¬runner.IsRestored := fun ⟨state, same⟩ => notRestored state same
        split at taken
        next stopped =>
          cases taken
          exact .stop (by rw [phase]; rfl) (fun _ => seed) stopped rfl
        next going =>
          cases taken
          exact .start phase seed (Bool.eq_false_iff.2 going)
  | arrived =>
      simp only [step?, phase] at taken
      split at taken
      next stopped =>
        cases taken
        exact .stop_of_phase phase rfl nofun stopped rfl
      next going =>
        cases taken
        exact .arrive phase (Bool.eq_false_iff.2 going)
  | waiting rest good =>
      cases rest with
      | nil =>
          simp only [step?, phase, afterDependencies] at taken
          cases good with
          | false =>
              cases taken
              exact .giveUp phase
          | true =>
              by_cases seed : runner.seed = .skip
              · simp only [seed, Bool.not_true, Bool.false_eq_true, if_false, if_true] at taken
                cases taken
                exact .skip phase seed
              · simp only [seed, Bool.not_true, Bool.false_eq_true, if_false] at taken
                cases taken
                exact .clear phase seed
      | cons dependency rest =>
          simp only [step?, phase] at taken
          split at taken
          next stopped =>
            cases taken
            exact .stop_of_phase phase rfl nofun stopped rfl
          next going =>
            split at taken
            next unknown =>
              cases taken
              exact .miss phase unknown rfl
            next handle known =>
              obtain ⟨state, settled, same⟩ := Option.map_eq_some_iff.1 taken
              cases same
              exact .hear phase known settled rfl
  | asking =>
      simp only [step?, phase] at taken
      split at taken
      next stopped =>
        cases taken
        exact .stop_of_phase phase rfl nofun stopped rfl
      next going =>
        split at taken
        next granted =>
          cases taken
          exact .pass phase granted rfl
        next denied =>
          cases taken
          exact .queue phase (Bool.eq_false_iff.2 denied) rfl
  | queued =>
      simp only [step?, phase] at taken
      split at taken
      next stopped =>
        cases taken
        exact .withdraw phase stopped
      next going =>
        split at taken
        next granted =>
          cases taken
          exact .enter phase granted rfl
        next => cases taken
  | launching =>
      simp only [step?, phase] at taken
      cases taken
      exact .launch phase
  | attempting => simp only [step?, phase, reduceCtorEq] at taken
  | reported result =>
      cases result with
      | report report =>
          simp only [step?, phase, judge] at taken
          cases aborted : report.aborted with
          | true =>
              simp only [aborted, if_true] at taken
              cases taken
              exact .obey phase aborted
          | false =>
              cases failed : report.failed with
              | false =>
                  simp only [aborted, failed, Bool.false_eq_true, Bool.not_false, if_false, if_true]
                    at taken
                  cases taken
                  exact .succeed phase aborted failed
              | true =>
                  simp only [aborted, failed, Bool.false_eq_true, Bool.not_true, if_false] at taken
                  split at taken
                  next last =>
                    cases taken
                    exact .exhaust phase aborted failed last
                  next left =>
                    cases taken
                    exact .retry phase aborted failed (Nat.lt_of_not_le left)
      | error error =>
          simp only [step?, phase] at taken
          split at taken
          next stopped =>
            cases taken
            exact .stop_of_phase phase rfl nofun stopped rfl
          next going =>
            cases taken
            exact .fail phase (Bool.eq_false_iff.2 going)
  | announcing target after =>
      simp only [step?, phase] at taken
      cases taken
      exact .announce phase
  | publishing target after =>
      simp only [step?, phase] at taken
      cases taken
      exact .publish phase
  | pausing =>
      simp only [step?, phase] at taken
      cases taken
      exact .release phase
  | resting =>
      simp only [step?, phase] at taken
      split at taken
      next stopped =>
        cases taken
        exact .stop_of_phase phase rfl nofun stopped rfl
      next => cases taken
  | leaving =>
      simp only [step?, phase] at taken
      cases taken
      exact .leave phase
  | gone => simp only [step?, phase, reduceCtorEq] at taken

theorem act_of_overtaken? (taken : runner.overtaken? handle? scene = some (next, after)) :
    runner.Act handle? scene (.overtaken runner.name) next after := by
  rw [overtaken?] at taken
  split at taken
  next looks =>
    obtain ⟨⟨runner, unaware⟩, stepped, same⟩ := Option.map_eq_some_iff.1 taken
    cases same
    cases act_of_step? stepped with
    | hear phase known settled => exact .hear phase known settled rfl
    | miss phase unknown => exact .miss phase unknown rfl
    | pass phase granted => exact .pass phase granted rfl
    | queue phase denied => exact .queue phase denied rfl
    | enter phase granted => exact .enter phase granted rfl
    | stop _ _ stopped => cases stopped
    | withdraw _ stopped => cases stopped
    | _ phase => simp [Phase.looksTwice, phase] at looks
  next => cases taken

theorem act_of_ended? {result : AttemptResult} (taken : runner.ended? result = some next) :
    runner.Act handle? scene (.ended runner.name result) next scene := by
  rw [ended?] at taken
  split at taken
  next phase =>
    cases taken
    exact .finish phase
  next => cases taken

theorem act_of_rested? (taken : runner.rested? scene = some next) :
    runner.Act handle? scene (.rested runner.name) next scene := by
  rw [rested?] at taken
  split at taken
  next pauses =>
    obtain ⟨pause, phase⟩ := Phase.exists_resting pauses
    cases taken
    split
    next stopped =>
      exact .stop_of_phase phase rfl nofun stopped rfl
    next going => exact .wake phase (Bool.eq_false_iff.2 going)
  next => cases taken

namespace Act

theorem task (act : runner.Act handle? scene step next after) : next.task = runner.task := by
  cases act <;> rfl

theorem seed (act : runner.Act handle? scene step next after) : next.seed = runner.seed := by
  cases act <;> rfl

theorem name (act : runner.Act handle? scene step next after) : next.name = runner.name :=
  congrArg Task.name act.task

theorem cancelled (act : runner.Act handle? scene step next after) :
    after.cancelled = scene.cancelled := by
  cases act <;> rfl

/-- Nothing happens to a runner that is gone. -/
theorem not_gone (act : runner.Act handle? scene step next after) : runner.phase ≠ .gone := by
  intro gone
  cases act with
  | stop phase => simp [Phase.heedsStop, gone] at phase
  | _ phase => cases phase.symm.trans gone

end Act

end Runner

/-! ## What a step of a run does -/

namespace Run

/-- What a step can do to a run. -/
inductive Change (run : Run) : Step → Run → Prop
  /-- Something happens to one runner. -/
  | act {step : Step} {before runner : Runner} {scene : Scene}
      (found : run.find? before.name = some before)
      (act : before.Act run.handle? run.scene step runner scene) :
      Change run step { run.put runner with scene }
  /-- An attempt puts out a line of its log. -/
  | line {before : Runner} {severity : Severity} {message : String}
      (found : run.find? before.name = some before) (phase : before.phase = .attempting) :
      Change run (.line before.name severity message)
        { run with scene := run.scene.send (.logged ⟨before.name, severity, message⟩) }
  | cancel : Change run .cancel { run with scene := { run.scene with cancelled := true } }
  | aggregate {aggregator : Aggregator}
      (taken : run.aggregator.step? run.scene.events run.isQuiet run.complete = some aggregator) :
      Change run .aggregator { run with aggregator }
  /-- The saver or the conductor goes on, which leaves all others as they are. -/
  | aside {step : Step} {next : Run} (runners : next.runners = run.runners)
      (scene : next.scene = run.scene) (aggregator : next.aggregator = run.aggregator)
      (aside : step.IsAside) (taken : run.step? step = some next) : Change run step next

variable {run next : Run} {step : Step}

theorem name_of_find? {name : String} {runner : Runner} (found : run.find? name = some runner) :
    runner.name = name := by
  simpa using List.find?_some found

/-- The saver goes on, or makes the write that it holds. -/
theorem saverStep?_cases {accepted : Bool} (taken : run.saverStep? accepted = some next) :
    (∃ saver, next = { run with saver }) ∨
      ∃ snapshot, run.saver = .writing snapshot ∧
        next = { run with saver := .waiting }.write snapshot accepted := by
  unfold saverStep? at taken
  split at taken
  next =>
    split at taken
    next =>
      cases taken
      exact Or.inl ⟨.stopped, rfl⟩
    next => cases taken
  next =>
    cases taken
    exact Or.inl ⟨_, rfl⟩
  next =>
    cases taken
    exact Or.inl ⟨_, rfl⟩
  next snapshot writing =>
    cases taken
    exact Or.inr ⟨snapshot, writing, rfl⟩
  next => cases taken

/-- The conductor declares the run complete, finds that all others are through, or finishes. -/
theorem conductorStep?_cases {accepted : Bool} (taken : run.conductorStep? accepted = some next) :
    (run.conductor = .settling ∧ run.aggregator.states.isSettled = true ∧
      next = { run with complete := true, conductor := .collecting }) ∨
    (run.conductor = .collecting ∧
      (run.isQuiet = true ∧ run.aggregator.phase = .ended ∧ run.saver = .stopped) ∧
      next = { run with conductor := .finalizing }) ∨
    (run.conductor = .finalizing ∧ next = run.finalize accepted) := by
  unfold conductorStep? at taken
  split at taken
  next phase =>
    split at taken
    next settled =>
      cases taken
      exact Or.inl ⟨phase, settled, rfl⟩
    next => cases taken
  next phase =>
    split at taken
    next through =>
      simp only [Bool.and_eq_true, decide_eq_true_eq, and_assoc] at through
      cases taken
      exact Or.inr (Or.inl ⟨phase, through, rfl⟩)
    next => cases taken
  next phase =>
    cases taken
    exact Or.inr (Or.inr ⟨phase, rfl⟩)
  next => cases taken

/-- All that the last step of the conductor changes is the checkpoint. -/
theorem finalize_eq (run : Run) (accepted : Bool) :
    run.finalize accepted =
      { run with
        conductor := (run.finalize accepted).conductor
        slot := (run.finalize accepted).slot
        writes := (run.finalize accepted).writes } := by
  unfold finalize
  split
  · rfl
  · dsimp only
    split <;> rfl

/-- The saver goes on, or makes the write that it holds, or the conductor goes on. -/
theorem aside_cases (aside : step.IsAside) (taken : run.step? step = some next) :
    (∃ saver, next = { run with saver }) ∨
    (∃ snapshot accepted, step = .saver accepted ∧ run.saver = .writing snapshot ∧
      next = { run with saver := .waiting }.write snapshot accepted) ∨
    ∃ accepted, step = .conductor accepted ∧ run.conductorStep? accepted = some next := by
  cases step with
  | tick =>
      simp only [step?] at taken
      split at taken
      next =>
        cases taken
        exact Or.inl ⟨_, rfl⟩
      next => cases taken
  | saver accepted =>
      rcases saverStep?_cases taken with same | ⟨snapshot, writing, same⟩
      · exact Or.inl same
      · exact Or.inr (Or.inl ⟨snapshot, accepted, rfl, writing, same⟩)
  | conductor accepted => exact Or.inr (Or.inr ⟨accepted, rfl, taken⟩)
  | runner | overtaken | line | ended | rested | cancel | aggregator => exact absurd aside id

private theorem change_of_aside (aside : step.IsAside) (taken : run.step? step = some next) :
    run.Change step next := by
  have same : next.runners = run.runners ∧ next.scene = run.scene ∧
      next.aggregator = run.aggregator := by
    rcases aside_cases aside taken with ⟨_, rfl⟩ | ⟨_, _, _, _, rfl⟩ | ⟨accepted, _, stepped⟩
    · exact ⟨rfl, rfl, rfl⟩
    · exact ⟨rfl, rfl, rfl⟩
    · rcases conductorStep?_cases stepped with ⟨_, _, rfl⟩ | ⟨_, _, rfl⟩ | ⟨_, rfl⟩
      · exact ⟨rfl, rfl, rfl⟩
      · exact ⟨rfl, rfl, rfl⟩
      · rw [finalize_eq]
        exact ⟨rfl, rfl, rfl⟩
  exact .aside same.1 same.2.1 same.2.2 aside taken

/-- Every step of a run is one of the changes. -/
theorem change_of_step? (taken : run.step? step = some next) : run.Change step next := by
  cases step with
  | runner name =>
      obtain ⟨before, found, rest⟩ := Option.bind_eq_some_iff.1 taken
      obtain ⟨⟨runner, scene⟩, stepped, same⟩ := Option.bind_eq_some_iff.1 rest
      cases name_of_find? found
      cases same
      exact .act found (Runner.act_of_step? stepped)
  | overtaken name =>
      obtain ⟨before, found, rest⟩ := Option.bind_eq_some_iff.1 taken
      obtain ⟨⟨runner, scene⟩, stepped, same⟩ := Option.bind_eq_some_iff.1 rest
      cases name_of_find? found
      cases same
      exact .act found (Runner.act_of_overtaken? stepped)
  | line name severity message =>
      obtain ⟨before, found, rest⟩ := Option.bind_eq_some_iff.1 taken
      cases name_of_find? found
      split at rest
      next phase =>
        cases rest
        exact .line found phase
      next => cases rest
  | ended name result =>
      obtain ⟨before, found, rest⟩ := Option.bind_eq_some_iff.1 taken
      obtain ⟨runner, stepped, same⟩ := Option.map_eq_some_iff.1 rest
      cases name_of_find? found
      cases same
      exact .act found (Runner.act_of_ended? stepped)
  | rested name =>
      obtain ⟨before, found, rest⟩ := Option.bind_eq_some_iff.1 taken
      obtain ⟨runner, stepped, same⟩ := Option.map_eq_some_iff.1 rest
      cases name_of_find? found
      cases same
      exact .act found (Runner.act_of_rested? stepped)
  | cancel =>
      cases taken
      exact .cancel
  | aggregator =>
      obtain ⟨aggregator, stepped, same⟩ := Option.map_eq_some_iff.1 taken
      cases same
      exact .aggregate stepped
  | tick | saver | conductor => exact change_of_aside trivial taken

/-! ## Looking up runners -/

theorem find?_put (run : Run) (runner : Runner) (name : String) :
    (run.put runner).find? name =
      (run.find? name).map fun other => if other.name = runner.name then runner else other := by
  have sameName : ((fun other : Runner => decide (other.name = name)) ∘ fun other : Runner =>
      if other.name = runner.name then runner else other) =
        fun other => decide (other.name = name) := by
    funext other
    by_cases same : other.name = runner.name
    · simp [same]
    · simp [same]
  rw [find?, find?, put, List.find?_map, sameName]

/-- After something happened to one runner, all others are found as before. -/
theorem find?_act {before runner : Runner} (found : run.find? before.name = some before)
    (same : runner.name = before.name) (scene : Scene) (name : String) :
    ({ run.put runner with scene } : Run).find? name =
      if name = before.name then some runner else run.find? name := by
  change (run.put runner).find? name = _
  rw [find?_put]
  by_cases sameName : name = before.name
  · rw [if_pos sameName, sameName, found, Option.map_some, if_pos same.symm]
  · rw [if_neg sameName]
    cases known : run.find? name with
    | none => rfl
    | some other =>
        have apart : other.name ≠ runner.name := by
          rw [name_of_find? known, same]
          exact sameName
        rw [Option.map_some, if_neg apart]

/-- A runner that is found after something happened to one is that one, or was found before. -/
theorem found_act {before runner : Runner} (found : run.find? before.name = some before)
    (same : runner.name = before.name) {scene : Scene} {name : String} {other : Runner}
    (otherFound : ({ run.put runner with scene } : Run).find? name = some other) :
    (name = before.name ∧ other = runner) ∨
      (name ≠ before.name ∧ run.find? name = some other) := by
  rw [find?_act found same] at otherFound
  by_cases here : name = before.name
  · rw [if_pos here, Option.some_inj] at otherFound
    exact Or.inl ⟨here, otherFound.symm⟩
  · rw [if_neg here] at otherFound
    exact Or.inr ⟨here, otherFound⟩

theorem find?_of_runners (same : next.runners = run.runners) : next.find? = run.find? := by
  funext name
  rw [find?, find?, same]

/-! ## Several steps -/

theorem steps?_append (run : Run) (front back : List Step) :
    run.steps? (front ++ back) = (run.steps? front).bind fun middle => middle.steps? back := by
  induction front generalizing run with
  | nil => rfl
  | cons step rest inductionHypothesis =>
      rw [List.cons_append, steps?, steps?]
      cases run.step? step with
      | none => rfl
      | some next => exact inductionHypothesis next

/-- The last of some steps is taken where the others have led. -/
theorem exists_of_steps?_concat {run last : Run} {front : List Step} {step : Step}
    (taken : run.steps? (front ++ [step]) = some last) :
    ∃ middle, run.steps? front = some middle ∧ middle.step? step = some last := by
  rw [steps?_append, Option.bind_eq_some_iff] at taken
  obtain ⟨middle, reached, further⟩ := taken
  obtain ⟨next, stepped, rest⟩ := Option.bind_eq_some_iff.1 further
  cases rest
  exact ⟨middle, reached, stepped⟩

end Run

/-! ## Courses -/

/-- The steps lead from the first state of a run to another, and each is allowed where it is
taken. -/
inductive Course (allowed : Run → Step → Prop) (first : Run) : List Step → Run → Prop
  | start : Course allowed first [] first
  | step {steps : List Step} {step : Step} {run next : Run}
      (course : Course allowed first steps run)
      (fits : allowed run step) (taken : run.step? step = some next) :
      Course allowed first (steps ++ [step]) next

namespace Course

variable {allowed : Run → Step → Prop} {first run : Run} {steps : List Step}

theorem cons {step : Step} {second : Run} (fits : allowed first step)
    (taken : first.step? step = some second) (course : Course allowed second steps run) :
    Course allowed first (step :: steps) run := by
  induction course with
  | start => exact .step .start fits taken
  | step _ laterFits laterTaken inductionHypothesis =>
      exact .step inductionHypothesis laterFits laterTaken

/-- Where the steps are allowed anywhere, a course is whatever steps can be taken. -/
theorem of_steps? {first : Run} (taken : first.steps? steps = some run)
    (fits : ∀ step ∈ steps, ∀ run, allowed run step) : Course allowed first steps run := by
  induction steps generalizing first with
  | nil =>
      cases taken
      exact .start
  | cons step rest inductionHypothesis =>
      obtain ⟨second, stepped, further⟩ := Option.bind_eq_some_iff.1 taken
      have later := inductionHypothesis further fun other member =>
        fits other (List.mem_cons_of_mem step member)
      exact cons (fits step List.mem_cons_self first) stepped later

theorem mono {wider : Run → Step → Prop} (course : Course allowed first steps run)
    (fits : ∀ {run : Run} {step : Step}, allowed run step → wider run step) :
    Course wider first steps run := by
  induction course with
  | start => exact .start
  | step _ here taken inductionHypothesis => exact .step inductionHypothesis (fits here) taken

theorem reached (course : Course allowed first steps run) : first.steps? steps = some run := by
  induction course with
  | start => rfl
  | step _ _ taken inductionHypothesis =>
      rw [Run.steps?_append, inductionHypothesis, Option.bind_some, Run.steps?, taken]
      rfl

/-- What is true at the start and stays true is true at the end of every course. -/
theorem invariant {P : Run → Prop} (course : Course allowed first steps run) (start : P first)
    (stays : ∀ {run next : Run} {step : Step}, P run → allowed run step → run.Change step next →
      P next) : P run := by
  induction course with
  | start => exact start
  | step _ fits taken inductionHypothesis =>
      exact stays inductionHypothesis fits (Run.change_of_step? taken)

end Course

/-- What is true at first and kept by every step is true wherever steps lead. -/
theorem Run.steps?_invariant {P : Run → Prop} {first run : Run} {steps : List Step}
    (taken : first.steps? steps = some run) (start : P first)
    (stays : ∀ {run next : Run} {step : Step}, P run → run.Change step next → P next) : P run := by
  have course : Course (fun _ _ => True) first steps run :=
    Course.of_steps? taken fun _ _ _ => trivial
  exact course.invariant start fun here _ change => stays here change

end JobGraph
