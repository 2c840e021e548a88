import JobGraph.Proofs.Run.Dependencies
import JobGraph.Proofs.Run.Forecast
import JobGraph.Proofs.Run.Moves
import JobGraph.Proofs.Run.Work

/-!
# Stopping a run

From one point where it waits for something to the next a runner goes on without a break, so a run
is told to stop while every runner stands at such a point (`Phase.isAwait`).  From there on it is
settled how each task ends, unless an attempt at it is under way: `Runner.lastMoves?` are the states
that the task is still moved into.  An attempt that is under way is waited for, and
`Runner.movesAfter` says what its end leads to.

A runner that looked for a call to stop just before one came (`Step.overtaken`) has not got to the
point where it waits, so the courses after a stop are those without such steps.
-/

namespace JobGraph

/-- The points at which a runner waits for something. -/
def Phase.isAwait : Phase → Bool
  | .ready | .waiting (_ :: _) _ | .queued | .attempting | .resting _ | .gone => true
  | _ => false

/-- The steps in which something happens to the runner of a task. -/
def Step.Concerns (name : String) : Step → Prop
  | .runner other | .overtaken other | .rested other | .ended other _ => other = name
  | _ => False

theorem Step.Concerns.unique {step : Step} {name other : String} (concerns : step.Concerns name)
    (again : step.Concerns other) : other = name := by
  cases step with
  | runner | overtaken | rested | ended => exact again.symm.trans concerns
  | line | cancel | aggregator | tick | saver | conductor => exact absurd concerns id

/-- The states that a stopped runner still moves its task into after it has published one. -/
def Next.lastMoves? : Next → Option (List TaskState)
  | .wait | .pause => some [.aborted]
  | .launch => none
  | .leave => some []

namespace Runner

/-- The states that a stopped runner still moves its task into once an attempt has ended. -/
def movesAfter (runner : Runner) (result : AttemptResult) : List TaskState :=
  match result.kind with
  | .abort | .error => [.aborted]
  | .success => [.completed]
  | .failure =>
    if runner.task.maxAttempts ≤ runner.attempts then [.failed] else [.pending, .aborted]

/-- The states that a runner still moves its task into once the run is told to stop; none if that
hangs on an attempt, or on what was heard of the dependencies. -/
def lastMoves? (runner : Runner) : Option (List TaskState) :=
  match runner.phase with
  | .ready =>
    match runner.seed with
    | .restored state => some [state]
    | _ => some [.aborted]
  | .arrived | .waiting (_ :: _) _ | .asking | .queued | .pausing | .resting _ => some [.aborted]
  | .waiting [] _ | .launching | .attempting => none
  | .reported result => some (runner.movesAfter result)
  | .announcing target next => next.lastMoves?.map (target :: ·)
  | .publishing _ next => next.lastMoves?
  | .leaving | .gone => some []

variable {handle? : String → Option Handle} {runner next : Runner} {scene after : Scene}
  {step : Step} {moves : List TaskState}

@[simp]
theorem lastMoves?_abort : runner.abort.lastMoves? = some [.aborted] := rfl

@[simp]
theorem lastMoves?_announce (target : TaskState) (further : Next) :
    (runner.announce target further).lastMoves? = further.lastMoves?.map (target :: ·) := rfl

theorem lastMoves?_judge (report : Report) :
    (runner.judge report).lastMoves? = some (runner.movesAfter (.report report)) := by
  cases aborted : report.aborted with
  | true => simp [judge, movesAfter, AttemptResult.kind, aborted]
  | false =>
      cases failed : report.failed with
      | false => simp [judge, movesAfter, AttemptResult.kind, aborted, failed, Next.lastMoves?]
      | true =>
          by_cases final : runner.task.maxAttempts ≤ runner.attempts
          · simp [judge, movesAfter, AttemptResult.kind, aborted, failed, final, Next.lastMoves?]
          · simp [judge, movesAfter, AttemptResult.kind, aborted, failed, final, Next.lastMoves?]

theorem lastMoves?_publish (target : TaskState) (further : Next) :
    ({ runner with state := target, phase := further.phase } : Runner).lastMoves? =
      further.lastMoves? := by
  cases further <;> rfl

/-- A step of a stopped runner tells the next of its last moves, or leaves them all to come. -/
theorem lastMoves?_of_step? (stopped : scene.cancelled = true)
    (known : runner.lastMoves? = some moves)
    (stepped : runner.step? handle? scene = some (next, after)) :
    ∃ rest, next.lastMoves? = some rest ∧ moves = runner.phase.announced ++ rest := by
  cases phase : runner.phase with
  | ready =>
      simp only [lastMoves?, phase] at known
      simp only [step?, phase, stopped, if_true] at stepped
      split at stepped
      next state seed =>
        simp only [seed, Option.some_inj] at known
        cases stepped
        exact ⟨_, rfl, known.symm⟩
      next notRestored =>
        split at known
        next state seed => exact absurd seed (notRestored state)
        next =>
          cases stepped
          cases known
          exact ⟨_, rfl, rfl⟩
  | waiting rest good =>
      cases rest with
      | nil => simp only [lastMoves?, phase, reduceCtorEq] at known
      | cons =>
          simp only [lastMoves?, phase, Option.some_inj] at known
          simp only [step?, phase, stopped, if_true] at stepped
          cases stepped
          exact ⟨_, rfl, known.symm⟩
  | arrived | asking | queued | resting =>
      simp only [lastMoves?, phase, Option.some_inj] at known
      simp only [step?, phase, stopped, if_true] at stepped
      cases stepped
      exact ⟨_, rfl, known.symm⟩
  | pausing | leaving =>
      simp only [lastMoves?, phase, Option.some_inj] at known
      simp only [step?, phase] at stepped
      cases stepped
      exact ⟨_, rfl, known.symm⟩
  | launching | attempting => simp only [lastMoves?, phase, reduceCtorEq] at known
  | reported result =>
      simp only [lastMoves?, phase, Option.some_inj] at known
      cases result with
      | report report =>
          simp only [step?, phase] at stepped
          cases stepped
          exact ⟨_, lastMoves?_judge report, known.symm⟩
      | error error =>
          simp only [step?, phase, stopped, if_true] at stepped
          cases stepped
          exact ⟨_, rfl, known.symm⟩
  | announcing target further =>
      simp only [lastMoves?, phase, Option.map_eq_some_iff] at known
      obtain ⟨rest, later, same⟩ := known
      simp only [step?, phase] at stepped
      cases stepped
      exact ⟨rest, later, same.symm⟩
  | publishing target further =>
      simp only [lastMoves?, phase] at known
      simp only [step?, phase] at stepped
      cases stepped
      exact ⟨moves, (lastMoves?_publish target further).trans known, rfl⟩
  | gone => simp only [step?, phase, reduceCtorEq] at stepped

theorem lastMoves?_of_rested? (stopped : scene.cancelled = true)
    (rested : runner.rested? scene = some next) :
    runner.lastMoves? = some [.aborted] ∧ next.lastMoves? = some [.aborted] := by
  rw [rested?, if_pos stopped] at rested
  split at rested
  next pauses =>
    obtain ⟨pause, phase⟩ := Phase.exists_resting pauses
    cases rested
    refine ⟨?_, rfl⟩
    simp only [lastMoves?, phase]
  next => cases rested

theorem exists_step? (stopped : scene.cancelled = true) (known : runner.lastMoves? = some moves)
    (here : runner.phase ≠ .gone) :
    ∃ next after, runner.step? handle? scene = some (next, after) := by
  cases phase : runner.phase with
  | gone => exact absurd phase here
  | ready =>
      simp only [step?, phase, stopped, if_true]
      split <;> exact ⟨_, _, rfl⟩
  | waiting rest good =>
      cases rest with
      | nil => simp only [lastMoves?, phase, reduceCtorEq] at known
      | cons =>
          simp only [step?, phase, stopped, if_true]
          exact ⟨_, _, rfl⟩
  | reported result =>
      cases result with
      | report report =>
          simp only [step?, phase]
          exact ⟨_, _, rfl⟩
      | error error =>
          simp only [step?, phase, stopped, if_true]
          exact ⟨_, _, rfl⟩
  | launching | attempting => simp only [lastMoves?, phase, reduceCtorEq] at known
  | _ =>
      simp only [step?, phase, stopped, if_true]
      exact ⟨_, _, rfl⟩

/-- A runner whose end is settled, or hangs on an attempt that is under way and on nothing else. -/
def IsWinding (runner : Runner) : Prop :=
  runner.phase = .attempting ∨ ∃ moves, runner.lastMoves? = some moves

theorem IsWinding.not_launching (winding : runner.IsWinding) : runner.phase ≠ .launching := by
  intro phase
  rcases winding with attempting | ⟨moves, known⟩
  · cases phase.symm.trans attempting
  · simp only [lastMoves?, phase, reduceCtorEq] at known

/-- What a runner that waits for something has before it when the run is told to stop. -/
theorem Fits.await_cases (fits : runner.Fits) (awaits : runner.phase.isAwait = true) :
    (runner.phase = .attempting ∧ ¬runner.IsRestored ∧ runner.state = .running) ∨
    (runner.phase = .gone ∧ runner.lastMoves? = some []) ∨
    (runner.phase ≠ .gone ∧ runner.state = .init ∧
      ∃ state, runner.seed = .restored state ∧ runner.lastMoves? = some [state]) ∨
    (runner.phase ≠ .gone ∧ ¬runner.IsRestored ∧ (runner.state = .init ∨ runner.state = .pending) ∧
      runner.lastMoves? = some [.aborted]) := by
  cases phase : runner.phase with
  | attempting =>
      simp only [Fits, phase] at fits
      exact Or.inl ⟨rfl, fits.1.not_restored, fits.2.1⟩
  | gone => exact Or.inr (Or.inl ⟨rfl, by simp only [lastMoves?, phase]⟩)
  | ready =>
      simp only [Fits, phase] at fits
      right
      right
      cases seed : runner.seed with
      | restored state =>
          refine Or.inl ⟨Phase.noConfusion, fits.1, state, rfl, ?_⟩
          simp only [lastMoves?, phase, seed]
      | fresh | skip =>
          refine Or.inr ⟨Phase.noConfusion, ?_, Or.inl fits.1, ?_⟩
          · rintro ⟨state, restored⟩
            cases seed.symm.trans restored
          · simp only [lastMoves?, phase, seed]
  | waiting rest good =>
      cases rest with
      | nil => simp [Phase.isAwait, phase] at awaits
      | cons =>
          simp only [Fits, phase] at fits
          refine Or.inr (Or.inr (Or.inr ⟨Phase.noConfusion, fits.1, Or.inr fits.2.1, ?_⟩))
          simp only [lastMoves?, phase]
  | queued | resting =>
      simp only [Fits, phase] at fits
      refine Or.inr (Or.inr (Or.inr ⟨Phase.noConfusion, fits.1.not_restored, Or.inr fits.2.1, ?_⟩))
      simp only [lastMoves?, phase]
  | _ => simp [Phase.isAwait, phase] at awaits

theorem Fits.isWinding (fits : runner.Fits) (awaits : runner.phase.isAwait = true) :
    runner.IsWinding := by
  rcases fits.await_cases awaits with ⟨phase, _⟩ | ⟨_, known⟩ | ⟨_, _, _, _, known⟩ |
    ⟨_, _, _, known⟩
  · exact Or.inl phase
  · exact Or.inr ⟨_, known⟩
  · exact Or.inr ⟨_, known⟩
  · exact Or.inr ⟨_, known⟩

theorem Act.concerns (act : runner.Act handle? scene step next after) :
    step.Concerns runner.name := by
  cases act with
  | stop _ _ _ turn | hear _ _ _ turn | miss _ _ turn | pass _ _ turn | queue _ _ turn
  | enter _ _ turn =>
      cases step <;> first | exact turn | exact absurd turn id
  | _ => rfl

end Runner

namespace Run

variable {graph : Graph} {seeds : KeyMap Seed} {run next last : Run} {step : Step}
  {steps : List Step} {name : String} {runner : Runner} {moves : List TaskState}

theorem Change.elsewhere (change : run.Change step next) (found : run.find? name = some runner)
    (others : ¬step.Concerns name) : next.find? name = some runner ∧
      History.targetsOf next.scene.events name = History.targetsOf run.scene.events name := by
  cases change with
  | act foundBefore act =>
      have apart : ∀ other : Runner, step.Concerns other.name → other.name ≠ name := by
        intro other concerns same
        exact others (same ▸ concerns)
      refine ⟨?_, ?_⟩
      · rw [find?_act foundBefore act.name, if_neg (apart _ act.concerns).symm]
        exact found
      · rw [act.targets name, if_neg (apart _ act.concerns), List.append_nil]
  | line =>
      refine ⟨found, ?_⟩
      rw [Scene.send, History.targetsOf_append, History.targetsOf_logged, List.append_nil]
  | cancel | aggregate => exact ⟨found, rfl⟩
  | aside runners scene => exact ⟨find?_of_runners runners ▸ found, by rw [scene]⟩

/-- What happened to a runner by a step of the run that is not one of overtaking a call to stop. -/
theorem turn_cases (found : run.find? name = some runner) (prompt : step ≠ .overtaken name)
    (taken : run.step? step = some next) :
    (next.find? name = some runner ∧
      History.targetsOf next.scene.events name = History.targetsOf run.scene.events name ∧
      ∀ result, step ≠ .ended name result) ∨
    (∃ now scene, step = .runner name ∧ runner.step? run.handle? run.scene = some (now, scene) ∧
      next.find? name = some now ∧ History.targetsOf next.scene.events name =
        History.targetsOf run.scene.events name ++ runner.phase.announced) ∨
    (∃ now, step = .rested name ∧ runner.rested? run.scene = some now ∧
      next.find? name = some now ∧
      History.targetsOf next.scene.events name = History.targetsOf run.scene.events name) ∨
    (∃ result, step = .ended name result ∧ runner.phase = .attempting ∧
      next.find? name = some { runner with phase := .reported result } ∧
      History.targetsOf next.scene.events name = History.targetsOf run.scene.events name) := by
  by_cases concerned : step.Concerns name
  · cases name_of_find? found
    cases step with
    | runner other =>
        cases concerned
        obtain ⟨before, foundBefore, rest⟩ := Option.bind_eq_some_iff.1 taken
        obtain ⟨⟨now, scene⟩, stepped, same⟩ := Option.bind_eq_some_iff.1 rest
        cases found.symm.trans foundBefore
        cases same
        have act := Runner.act_of_step? stepped
        refine Or.inr (Or.inl ⟨now, scene, rfl, stepped, ?_, ?_⟩)
        · exact (find?_act found act.name scene runner.name).trans (if_pos rfl)
        · rw [act.targets runner.name, if_pos rfl]
    | overtaken other => exact absurd (congrArg Step.overtaken concerned) prompt
    | rested other =>
        cases concerned
        obtain ⟨before, foundBefore, rest⟩ := Option.bind_eq_some_iff.1 taken
        obtain ⟨now, rested, same⟩ := Option.map_eq_some_iff.1 rest
        cases found.symm.trans foundBefore
        cases same
        have act : runner.Act run.handle? run.scene (.rested runner.name) now run.scene :=
          Runner.act_of_rested? rested
        refine Or.inr (Or.inr (Or.inl ⟨now, rfl, rested, ?_, rfl⟩))
        exact (find?_act found act.name run.scene runner.name).trans (if_pos rfl)
    | ended other result =>
        cases concerned
        obtain ⟨before, foundBefore, rest⟩ := Option.bind_eq_some_iff.1 taken
        obtain ⟨now, ended, same⟩ := Option.map_eq_some_iff.1 rest
        cases found.symm.trans foundBefore
        cases same
        rw [Runner.ended?] at ended
        split at ended
        next phase =>
          cases ended
          have act : runner.Act run.handle? run.scene (.ended runner.name result)
              { runner with phase := .reported result } run.scene := .finish phase
          refine Or.inr (Or.inr (Or.inr ⟨result, rfl, phase, ?_, rfl⟩))
          exact (find?_act found act.name run.scene runner.name).trans (if_pos rfl)
        next => cases ended
    | line | cancel | aggregator | tick | saver | conductor => exact absurd concerned id
  · obtain ⟨still, targets⟩ := (change_of_step? taken).elsewhere found concerned
    refine Or.inl ⟨still, targets, ?_⟩
    rintro result rfl
    exact concerned rfl

theorem lastMoves?_of_taken (stopped : run.scene.cancelled = true)
    (found : run.find? name = some runner) (known : runner.lastMoves? = some moves)
    (prompt : step ≠ .overtaken name) (taken : run.step? step = some next) :
    ∃ now since rest, next.find? name = some now ∧
      History.targetsOf next.scene.events name =
        History.targetsOf run.scene.events name ++ since ∧
      now.lastMoves? = some rest ∧ moves = since ++ rest ∧ ∀ result, step ≠ .ended name result := by
  rcases turn_cases found prompt taken with ⟨still, targets, notEnded⟩ |
    ⟨now, scene, rfl, stepped, nowFound, targets⟩ | ⟨now, rfl, rested, nowFound, targets⟩ |
    ⟨result, rfl, phase, _⟩
  · exact ⟨runner, [], moves, still, targets.trans (List.append_nil _).symm, known, rfl, notEnded⟩
  · obtain ⟨rest, later, split⟩ := Runner.lastMoves?_of_step? stopped known stepped
    exact ⟨now, _, rest, nowFound, targets, later, split, fun _ same => by cases same⟩
  · obtain ⟨before, later⟩ := Runner.lastMoves?_of_rested? stopped rested
    cases before.symm.trans known
    exact ⟨now, [], _, nowFound, targets.trans (List.append_nil _).symm, later, rfl,
      fun _ same => by cases same⟩
  · simp only [Runner.lastMoves?, phase, reduceCtorEq] at known

/-- After the stop, the last moves of a task are told one after the other, and no others. -/
theorem Orderly.lastMoves? (orderly : Orderly graph seeds run)
    (stopped : run.scene.cancelled = true) (found : run.find? name = some runner)
    (known : runner.lastMoves? = some moves) (prompt : .overtaken name ∉ steps)
    (taken : run.steps? steps = some last) :
    ∃ now since rest, last.find? name = some now ∧
      History.targetsOf last.scene.events name =
        History.targetsOf run.scene.events name ++ since ∧
      now.lastMoves? = some rest ∧ moves = since ++ rest ∧
        ∀ result, .ended name result ∉ steps := by
  induction steps generalizing run runner moves with
  | nil =>
      cases taken
      exact ⟨runner, [], moves, found, (List.append_nil _).symm, known, rfl,
        fun _ member => by cases member⟩
  | cons step steps inductionHypothesis =>
      obtain ⟨next, first, further⟩ := Option.bind_eq_some_iff.1 taken
      have change := change_of_step? first
      obtain ⟨now, since, rest, nowFound, targets, later, split, notEnded⟩ :=
        lastMoves?_of_taken stopped found known
          (fun same => prompt (same ▸ List.mem_cons_self)) first
      obtain ⟨final, more, left, finalFound, moreTargets, remains, rejoined, noneEnded⟩ :=
        inductionHypothesis (orderly.change change) ((orderly.keeps change).cancelled stopped)
          nowFound later (fun member => prompt (List.mem_cons_of_mem _ member)) further
      refine ⟨final, since ++ more, left, finalFound, ?_, remains, ?_, ?_⟩
      · rw [moreTargets, targets, List.append_assoc]
      · rw [split, rejoined, List.append_assoc]
      · intro result member
        rcases List.mem_cons.1 member with same | later
        · exact notEnded result same.symm
        · exact noneEnded result later

/-- An attempt that is under way at the stop goes on until it ends, and then its end alone settles
what becomes of the task. -/
theorem Orderly.attempting (orderly : Orderly graph seeds run)
    (stopped : run.scene.cancelled = true) (found : run.find? name = some runner)
    (phase : runner.phase = .attempting) (prompt : .overtaken name ∉ steps)
    (taken : run.steps? steps = some last) :
    (last.find? name = some runner ∧ History.targetsOf last.scene.events name =
        History.targetsOf run.scene.events name ∧ ∀ result, .ended name result ∉ steps) ∨
    ∃ result now since rest, last.find? name = some now ∧
      History.targetsOf last.scene.events name =
        History.targetsOf run.scene.events name ++ since ∧
      now.lastMoves? = some rest ∧ runner.movesAfter result = since ++ rest ∧
      ∀ other, .ended name other ∈ steps ↔ other = result := by
  induction steps generalizing run with
  | nil =>
      cases taken
      exact Or.inl ⟨found, rfl, fun _ member => by cases member⟩
  | cons step steps inductionHypothesis =>
      obtain ⟨next, first, further⟩ := Option.bind_eq_some_iff.1 taken
      have change := change_of_step? first
      have later := orderly.change change
      have stillStopped := (orderly.keeps change).cancelled stopped
      have stillPrompt : .overtaken name ∉ steps :=
        fun member => prompt (List.mem_cons_of_mem _ member)
      -- Until its attempt ends, nothing can happen to the runner; from then on its end is settled.
      rcases turn_cases found (fun same => prompt (same ▸ List.mem_cons_self)) first with
        ⟨still, targets, notEnded⟩ | ⟨now, scene, rfl, stepped, _⟩ | ⟨now, rfl, rested, _⟩ |
        ⟨result, rfl, _, nowFound, told⟩
      · rcases inductionHypothesis later stillStopped still stillPrompt further with
          ⟨final, same, noneEnded⟩ |
          ⟨result, final, since, left, finalFound, more, remains, split, only⟩
        · refine Or.inl ⟨final, same.trans targets, ?_⟩
          intro result member
          rcases List.mem_cons.1 member with here | later
          · exact notEnded result here.symm
          · exact noneEnded result later
        · refine Or.inr ⟨result, final, since, left, finalFound, targets ▸ more, remains, split, ?_⟩
          intro other
          rw [List.mem_cons, only other]
          exact ⟨fun either => either.resolve_left fun here => notEnded other here.symm, Or.inr⟩
      · simp only [Runner.step?, phase, reduceCtorEq] at stepped
      · simp only [Runner.rested?, phase, Phase.pause?, Option.isSome_none, Bool.false_eq_true,
          if_false, reduceCtorEq] at rested
      · obtain ⟨final, since, left, finalFound, targets, remains, split, noneEnded⟩ :=
          later.lastMoves? stillStopped nowFound rfl stillPrompt further
        refine Or.inr ⟨result, final, since, left, finalFound, told ▸ targets, remains, split, ?_⟩
        intro other
        refine ⟨?_, fun same => same ▸ List.mem_cons_self⟩
        intro member
        rcases List.mem_cons.1 member with same | again
        · exact (Step.ended.inj same).2
        · exact absurd again (noneEnded other)

theorem Orderly.isWinding (orderly : Orderly graph seeds run)
    (stopped : run.scene.cancelled = true) (found : run.find? name = some runner)
    (winding : runner.IsWinding) (prompt : .overtaken name ∉ steps)
    (taken : run.steps? steps = some last) :
    ∃ now, last.find? name = some now ∧ now.IsWinding := by
  rcases winding with phase | ⟨moves, known⟩
  · rcases orderly.attempting stopped found phase prompt taken with
      ⟨still, _⟩ | ⟨_, now, _, rest, nowFound, _, later, _⟩
    · exact ⟨runner, still, Or.inl phase⟩
    · exact ⟨now, nowFound, Or.inr ⟨rest, later⟩⟩
  · obtain ⟨now, _, rest, nowFound, _, later, _⟩ :=
      orderly.lastMoves? stopped found known prompt taken
    exact ⟨now, nowFound, Or.inr ⟨rest, later⟩⟩

theorem Orderly.launches_eq (orderly : Orderly graph seeds run)
    (stopped : run.scene.cancelled = true)
    (winding : ∀ name runner, run.find? name = some runner → runner.IsWinding)
    (prompt : ∀ name, .overtaken name ∉ steps) (taken : run.steps? steps = some last) :
    last.scene.launches = run.scene.launches := by
  induction steps generalizing run with
  | nil =>
      cases taken
      rfl
  | cons step steps inductionHypothesis =>
      obtain ⟨next, first, further⟩ := Option.bind_eq_some_iff.1 taken
      have change := change_of_step? first
      have later := orderly.change change
      have only : run.steps? [step] = some next := by
        rw [steps?, first]
        rfl
      have stillWinding : ∀ name runner, next.find? name = some runner → runner.IsWinding := by
        intro name now nowFound
        obtain ⟨before, found⟩ := find?_of_mem_names (orderly.names.symm ▸ later.name_mem nowFound)
        have promptHere : .overtaken name ∉ [step] := by
          intro member
          exact prompt name (List.mem_singleton.1 member ▸ List.mem_cons_self)
        obtain ⟨other, otherFound, still⟩ :=
          orderly.isWinding stopped found (winding name before found) promptHere only
        cases nowFound.symm.trans otherFound
        exact still
      -- Only a runner that is about to launch an attempt does so, and none that winds up is.
      have rest := inductionHypothesis later ((orderly.keeps change).cancelled stopped) stillWinding
        (fun name member => prompt name (List.mem_cons_of_mem _ member)) further
      refine rest.trans ?_
      cases change with
      | act found act =>
          have quiet := (winding _ _ found).not_launching
          rw [act.launches, Runner.launched, if_neg quiet, List.append_nil]
      | line | cancel | aggregate => rfl
      | aside _ scene => rw [scene]

theorem Orderly.turns_le (orderly : Orderly graph seeds run) (found : run.find? name = some runner)
    (taken : run.steps? steps = some last) :
    ∃ now, last.find? name = some now ∧ steps.count (.runner name) + now.work ≤ runner.work := by
  induction steps generalizing run runner with
  | nil =>
      cases taken
      exact ⟨runner, found, Nat.le_of_eq (Nat.zero_add _)⟩
  | cons step steps inductionHypothesis =>
      obtain ⟨next, first, further⟩ := Option.bind_eq_some_iff.1 taken
      have change := change_of_step? first
      have later := orderly.change change
      by_cases concerned : step.Concerns name
      · cases change with
        | act foundBefore act =>
            cases concerned.unique act.concerns
            cases found.symm.trans foundBefore
            have less := act.work_lt (orderly.fits found)
            obtain ⟨now, nowFound, bound⟩ := inductionHypothesis later
              ((find?_act found act.name _ _).trans (if_pos rfl)) further
            refine ⟨now, nowFound, ?_⟩
            rw [List.count_cons]
            split <;> omega
        | line | cancel | aggregate => exact absurd concerned id
        | aside _ _ _ aside =>
            cases step <;> first | exact absurd concerned id | exact absurd aside id
      · obtain ⟨now, nowFound, bound⟩ :=
          inductionHypothesis later (change.elsewhere found concerned).1 further
        refine ⟨now, nowFound, ?_⟩
        rw [List.count_cons_of_ne]
        · exact bound
        · rintro rfl
          exact concerned rfl

end Run

/-! ## What a stop leads to -/

/-- The states are moved into in this order, and into all of them by the time the runner is gone. -/
def Runner.Tells (now : Runner) (since moves : List TaskState) : Prop :=
  since <+: moves ∧ (now.isGone = true → since = moves)

/-- What becomes of a task once its run is told to stop: `runner` is its runner at the stop, `now`
the one after some more steps, and `since` are the states that the task was moved into meanwhile. -/
structure Runner.WindsUp (runner : Runner) (steps : List Step) (since : List TaskState)
    (now : Runner) : Prop where
  /-- No task starts to run, is skipped or is given up any more, unless it is restored to that. -/
  starts : ∀ state ∈ since, state = .running ∨ state = .skip ∨ state = .defaulted →
    runner.seed = .restored state
  /-- A task that ended in an earlier run is still moved into that end. -/
  restored : ∀ state, runner.seed = .restored state → runner.isGone = false →
    now.Tells since [state]
  /-- A task that waits is aborted. -/
  waiting : ¬runner.IsRestored → runner.state = .init ∨ runner.state = .pending →
    now.Tells since [.aborted]
  /-- A task that runs stays so until its attempt ends. -/
  running : runner.state = .running → (∀ result, .ended runner.name result ∉ steps) → since = []
  /-- Then the end of the attempt tells what becomes of it. -/
  ended : ∀ result, .ended runner.name result ∈ steps → now.Tells since (runner.movesAfter result)
  /-- A task that has ended is left alone. -/
  past : runner.isGone = true ∨ runner.state.isTerminal = true → since = []

/-- How many of the tasks have failed or were given up, as the events tell. -/
def History.failureCount (names : List String) (events : List Event) : Nat :=
  names.countP fun name => stateOf events name ∈ TaskState.failures

namespace Runner

variable {runner now : Runner} {steps : List Step} {since rest moves : List TaskState}

theorem tells_of_lastMoves? (known : now.lastMoves? = some rest) (split : moves = since ++ rest) :
    now.Tells since moves := by
  refine ⟨⟨rest, split.symm⟩, fun gone => ?_⟩
  have phase : now.phase = .gone := of_decide_eq_true gone
  simp only [lastMoves?, phase, Option.some_inj] at known
  rw [split, ← known, List.append_nil]

theorem movesAfter_starts (runner : Runner) (result : AttemptResult) :
    ∀ state ∈ runner.movesAfter result,
      ¬(state = .running ∨ state = .skip ∨ state = .defaulted) := by
  intro state member
  unfold movesAfter at member
  split at member
  case h_4 =>
    split at member
    all_goals
      simp only [List.mem_cons, List.not_mem_nil, or_false] at member
      rcases member with rfl | rfl <;> decide
  all_goals
    cases List.mem_singleton.1 member
    decide

theorem isGone_eq_false (here : runner.phase ≠ .gone) : runner.isGone = false :=
  decide_eq_false here

namespace WindsUp

variable {state : TaskState}

theorem of_attempting (notRestored : ¬runner.IsRestored) (source : runner.state = .running)
    (noneEnded : ∀ result, .ended runner.name result ∉ steps) : runner.WindsUp steps [] now where
  starts _ member := by cases member
  restored state seed := absurd ⟨state, seed⟩ notRestored
  waiting _ waits := by
    rw [source] at waits
    exact absurd waits (by decide)
  running _ _ := rfl
  ended result there := absurd there (noneEnded result)
  past _ := rfl

theorem of_ended {result : AttemptResult} (phase : runner.phase = .attempting)
    (notRestored : ¬runner.IsRestored) (source : runner.state = .running)
    (known : now.lastMoves? = some rest) (split : runner.movesAfter result = since ++ rest)
    (only : ∀ other, .ended runner.name other ∈ steps ↔ other = result) :
    runner.WindsUp steps since now where
  starts state member starts := by
    refine absurd starts (runner.movesAfter_starts result state ?_)
    rw [split]
    exact List.mem_append_left _ member
  restored state seed := absurd ⟨state, seed⟩ notRestored
  waiting _ waits := by
    rw [source] at waits
    exact absurd waits (by decide)
  running _ never := absurd ((only result).2 rfl) (never result)
  ended other there := by
    cases (only other).1 there
    exact tells_of_lastMoves? known split
  past past := by
    have here : runner.isGone = false := isGone_eq_false fun gone => by cases phase.symm.trans gone
    rw [here, source] at past
    exact absurd past (by decide)

theorem of_gone (fits : runner.Fits) (phase : runner.phase = .gone)
    (noneEnded : ∀ result, .ended runner.name result ∉ steps) : runner.WindsUp steps [] now where
  starts _ member := by cases member
  restored _ _ here := absurd (here.symm.trans (decide_eq_true phase)) Bool.false_ne_true
  waiting notRestored waits := by
    simp only [Fits, phase] at fits
    have ended := fits.2.1 notRestored
    rcases waits with source | source
    · rw [source] at ended
      cases ended
    · rw [source] at ended
      cases ended
  running _ _ := rfl
  ended result there := absurd there (noneEnded result)
  past _ := rfl

theorem of_restored (here : runner.phase ≠ .gone) (source : runner.state = .init)
    (seed : runner.seed = .restored state) (known : now.lastMoves? = some rest)
    (split : [state] = since ++ rest) (noneEnded : ∀ result, .ended runner.name result ∉ steps) :
    runner.WindsUp steps since now where
  starts other member _ := by
    have same : other ∈ [state] := by
      rw [split]
      exact List.mem_append_left _ member
    rw [List.mem_singleton.1 same]
    exact seed
  restored other again _ := by
    cases seed.symm.trans again
    exact tells_of_lastMoves? known split
  waiting notRestored := absurd ⟨state, seed⟩ notRestored
  running runs := by cases source.symm.trans runs
  ended result there := absurd there (noneEnded result)
  past past := by
    rw [isGone_eq_false here, source] at past
    exact absurd past (by decide)

theorem of_waiting (here : runner.phase ≠ .gone) (notRestored : ¬runner.IsRestored)
    (source : runner.state = .init ∨ runner.state = .pending) (known : now.lastMoves? = some rest)
    (split : [.aborted] = since ++ rest) (noneEnded : ∀ result, .ended runner.name result ∉ steps) :
    runner.WindsUp steps since now where
  starts other member starts := by
    have same : other ∈ [TaskState.aborted] := by
      rw [split]
      exact List.mem_append_left _ member
    rw [List.mem_singleton.1 same] at starts
    exact absurd starts (by decide)
  restored state seed := absurd ⟨state, seed⟩ notRestored
  waiting _ _ := tells_of_lastMoves? known split
  running runs := by
    rcases source with source | source
    · cases source.symm.trans runs
    · cases source.symm.trans runs
  ended result there := absurd there (noneEnded result)
  past past := by
    rw [isGone_eq_false here] at past
    rcases source with source | source
    · rw [source] at past
      exact absurd past (by decide)
    · rw [source] at past
      exact absurd past (by decide)

end WindsUp

/-- Of the tasks that were not restored as failures, none fails after the stop unless an attempt
does. -/
theorem WindsUp.not_failure (windsUp : runner.WindsUp steps since now)
    (unrestored : runner.seed ∉ TaskState.failures.map Seed.restored)
    (obedient : ∀ result, .ended runner.name result ∈ steps →
      result.kind = .abort ∨ result.kind = .error) :
    ∀ state ∈ since, state ∉ TaskState.failures := by
  intro state member
  have ofAborted : since <+: [.aborted] → state ∉ TaskState.failures := by
    intro front
    cases List.mem_singleton.1 (front.subset member)
    decide
  by_cases restored : runner.IsRestored
  · obtain ⟨target, seed⟩ := restored
    cases gone : runner.isGone with
    | true =>
        rw [windsUp.past (Or.inl gone)] at member
        cases member
    | false =>
        cases List.mem_singleton.1 ((windsUp.restored target seed gone).1.subset member)
        intro failure
        exact unrestored (seed ▸ List.mem_map_of_mem failure)
  · cases source : runner.state with
    | init => exact ofAborted (windsUp.waiting restored (Or.inl source)).1
    | pending => exact ofAborted (windsUp.waiting restored (Or.inr source)).1
    | running =>
        by_cases ends : ∃ result, .ended runner.name result ∈ steps
        · obtain ⟨result, there⟩ := ends
          have moves : runner.movesAfter result = [.aborted] := by
            rcases obedient result there with kind | kind <;> simp only [movesAfter, kind]
          exact ofAborted (moves ▸ (windsUp.ended result there).1)
        · rw [windsUp.running source fun result there => ends ⟨result, there⟩] at member
          cases member
    | _ =>
        rw [windsUp.past (Or.inr (by rw [source]; rfl))] at member
        cases member

end Runner

namespace Run

variable {graph : Graph} {seeds : KeyMap Seed} {run last : Run} {steps : List Step}
  {name : String} {runner : Runner}

theorem Orderly.windsUp (orderly : Orderly graph seeds run) (stopped : run.scene.cancelled = true)
    (found : run.find? name = some runner) (awaits : runner.phase.isAwait = true)
    (prompt : .overtaken name ∉ steps) (taken : run.steps? steps = some last) :
    ∃ now since, last.find? name = some now ∧ History.targetsOf last.scene.events name =
        History.targetsOf run.scene.events name ++ since ∧
      runner.WindsUp steps since now ∧
      ((runner.state = .running ∧ ∀ result, .ended name result ∉ steps) ∨
        ∃ rest, now.lastMoves? = some rest) := by
  have fits := orderly.fits found
  cases name_of_find? found
  rcases fits.await_cases awaits with ⟨phase, notRestored, source⟩ | ⟨phase, known⟩ |
    ⟨here, source, state, seed, known⟩ | ⟨here, notRestored, source, known⟩
  · rcases orderly.attempting stopped found phase prompt taken with
      ⟨unmoved, same, noneEnded⟩ | ⟨result, now, since, rest, nowFound, more, later, split, only⟩
    · exact ⟨runner, [], unmoved, same.trans (List.append_nil _).symm,
        .of_attempting notRestored source noneEnded, Or.inl ⟨source, noneEnded⟩⟩
    · exact ⟨now, since, nowFound, more, .of_ended phase notRestored source later split only,
        Or.inr ⟨rest, later⟩⟩
  · obtain ⟨now, since, rest, nowFound, more, later, split, noneEnded⟩ :=
      orderly.lastMoves? stopped found known prompt taken
    cases (List.append_eq_nil_iff.1 split.symm).1
    exact ⟨now, [], nowFound, more, .of_gone fits phase noneEnded, Or.inr ⟨rest, later⟩⟩
  · obtain ⟨now, since, rest, nowFound, more, later, split, noneEnded⟩ :=
      orderly.lastMoves? stopped found known prompt taken
    exact ⟨now, since, nowFound, more, .of_restored here source seed later split noneEnded,
      Or.inr ⟨rest, later⟩⟩
  · obtain ⟨now, since, rest, nowFound, more, later, split, noneEnded⟩ :=
      orderly.lastMoves? stopped found known prompt taken
    exact ⟨now, since, nowFound, more, .of_waiting here notRestored source later split noneEnded,
      Or.inr ⟨rest, later⟩⟩

/-- When nothing that was told since the stop is a failure, a task has failed afterwards only if it
had failed before. -/
theorem Orderly.mem_failures_iff (orderly : Orderly graph seeds run)
    (found : run.find? name = some runner) (awaits : runner.phase.isAwait = true)
    {since : List TaskState} (targets : History.targetsOf last.scene.events name =
      History.targetsOf run.scene.events name ++ since)
    (past : runner.state.isTerminal = true → since = [])
    (quiet : ∀ state ∈ since, state ∉ TaskState.failures) :
    History.stateOf last.scene.events name ∈ TaskState.failures ↔
      History.stateOf run.scene.events name ∈ TaskState.failures := by
  rw [History.stateOf_eq_getLastD, targets]
  rcases List.eq_nil_or_concat since with rfl | ⟨front, final, rfl⟩
  · rw [List.append_nil, ← History.stateOf_eq_getLastD]
  · rw [List.concat_eq_append, ← List.append_assoc, List.getLastD_concat]
    refine iff_of_false (quiet final (by simp)) ?_
    intro failed
    have published : runner.logged = runner.state := by
      cases phase : runner.phase with
      | publishing => simp [Phase.isAwait, phase] at awaits
      | _ => simp [Runner.logged, phase]
    rw [orderly.logged found, published] at failed
    have ended : runner.state.isTerminal = true := by
      simp only [TaskState.failures, List.mem_cons, List.not_mem_nil, or_false] at failed
      rcases failed with same | same <;> rw [same] <;> rfl
    simpa using past ended

/-- When a run is told to stop while every runner waits for something, no attempt is launched any
more and every runner winds up: it can always go on, unless an attempt at its task was under way and
has not ended, and it has only so many steps to take.  If the attempts that are under way do as they
are told, the number of failures stays the same, but for the tasks that are restored as failures. -/
theorem stopped_run_winds_up {limit : Nat} {store : Store} {cancelled keeps saves : Bool}
    {slot : Option Snapshot} {before : List Step}
    (course : (start graph limit seeds store cancelled keeps saves slot).steps? before = some run)
    (stopped : run.scene.cancelled = true)
    (awaits : ∀ runner ∈ run.runners, runner.phase.isAwait = true)
    (prompt : ∀ name, .overtaken name ∉ steps) (taken : run.steps? steps = some last) :
    last.scene.launches = run.scene.launches ∧
    (∀ name ∈ graph.names, ∃ runner now since, run.find? name = some runner ∧
      last.find? name = some now ∧
      History.targetsOf last.scene.events name =
        History.targetsOf run.scene.events name ++ since ∧
      runner.WindsUp steps since now ∧
      (now.isGone = true ∨ (runner.state = .running ∧ ∀ result, .ended name result ∉ steps) ∨
        ∃ next, last.step? (.runner name) = some next) ∧
      steps.count (.runner name) ≤ runner.work) ∧
    ((∀ name result, .ended name result ∈ steps → result.kind = .abort ∨ result.kind = .error) →
      History.failureCount (graph.names.filter fun name =>
          seedOf seeds name ∉ TaskState.failures.map Seed.restored) last.scene.events =
        History.failureCount (graph.names.filter fun name =>
          seedOf seeds name ∉ TaskState.failures.map Seed.restored) run.scene.events) := by
  have orderly : Orderly graph seeds run := by
    have reached : Course (fun _ _ => True) _ before run :=
      Course.of_steps? course fun _ _ _ => trivial
    exact Orderly.course reached Orderly.start
  have afterwards : Orderly graph seeds last ∧ last.scene.cancelled = true := by
    have reached : Course (fun _ _ => True) run steps last :=
      Course.of_steps? taken fun _ _ _ => trivial
    refine reached.invariant (P := fun last => Orderly graph seeds last ∧
      last.scene.cancelled = true) ⟨orderly, stopped⟩ ?_
    rintro run next step ⟨orderly, stopped⟩ _ change
    exact ⟨orderly.change change, (orderly.keeps change).cancelled stopped⟩
  have staffed : ∀ name ∈ graph.names, ∃ runner, run.find? name = some runner ∧
      runner.phase.isAwait = true := by
    intro name listed
    obtain ⟨runner, found⟩ := find?_of_mem_names (orderly.names.symm ▸ listed)
    exact ⟨runner, found, awaits runner (mem_of_find? found)⟩
  refine ⟨?_, ?_, ?_⟩
  · refine orderly.launches_eq stopped ?_ prompt taken
    intro name runner found
    exact (orderly.fits found).isWinding (awaits runner (mem_of_find? found))
  · intro name listed
    obtain ⟨runner, found, waits⟩ := staffed name listed
    obtain ⟨now, since, nowFound, targets, windsUp, left⟩ :=
      orderly.windsUp stopped found waits (prompt name) taken
    obtain ⟨_, lastFound, bound⟩ := orderly.turns_le found taken
    refine ⟨runner, now, since, found, nowFound, targets, windsUp, ?_, by omega⟩
    by_cases gone : now.phase = .gone
    · exact Or.inl (decide_eq_true gone)
    rcases left with underWay | ⟨rest, known⟩
    · exact Or.inr (Or.inl underWay)
    · obtain ⟨after, scene, stepped⟩ : ∃ after scene,
          now.step? last.handle? last.scene = some (after, scene) :=
        Runner.exists_step? afterwards.2 known gone
      refine Or.inr (Or.inr ⟨{ last.put after with scene }, ?_⟩)
      rw [step?, nowFound, Option.bind_eq_bind, Option.bind_some, stepped]
      rfl
  · intro obedient
    refine List.countP_congr fun name member => ?_
    obtain ⟨listed, unrestored⟩ := List.mem_filter.1 member
    obtain ⟨runner, found, waits⟩ := staffed name listed
    obtain ⟨now, since, nowFound, targets, windsUp, _⟩ :=
      orderly.windsUp stopped found waits (prompt name) taken
    have quiet : ∀ state ∈ since, state ∉ TaskState.failures := by
      refine windsUp.not_failure ?_ fun result there => obedient _ result there
      rw [(orderly.staffed found).2]
      exact of_decide_eq_true unrestored
    simpa using orderly.mem_failures_iff found waits targets
      (fun ended => windsUp.past (Or.inr ended)) quiet

/-- The steps of two tasks that share one permit, until the first is being attempted, the second
waits for the permit, and the run is told to stop. -/
def stoppingSteps : List Step :=
  List.replicate 9 (.runner "left") ++ List.replicate 6 (.runner "right") ++ [.cancel]

/-- The steps after the stop: the attempt does as it is told, and both runners go to their ends. -/
def stoppedSteps : List Step :=
  .ended "left" (.report ⟨false, true, []⟩) ::
    (List.replicate 4 (.runner "left") ++ List.replicate 4 (.runner "right"))

theorem stopped_rivals_wind_up :
    ∃ run last, (start Graph.rivals 1 .empty .empty false false false none).steps? stoppingSteps =
        some run ∧ run.steps? stoppedSteps = some last ∧
      History.targetsOf run.scene.events "left" = [.pending, .running] ∧
      History.targetsOf last.scene.events "left" = [.pending, .running, .aborted] ∧
      History.targetsOf last.scene.events "right" = [.pending, .aborted] ∧
      last.scene.launches = run.scene.launches ∧
      (∃ runner now since, run.find? "right" = some runner ∧ last.find? "right" = some now ∧
        runner.WindsUp stoppedSteps since now) ∧
      History.failureCount Graph.rivals.names last.scene.events =
        History.failureCount Graph.rivals.names run.scene.events := by
  obtain ⟨run, last, reached, taken, stopped, waiting, running, left, right⟩ :
      ∃ run last, (start Graph.rivals 1 .empty .empty false false false none).steps?
          stoppingSteps = some run ∧ run.steps? stoppedSteps = some last ∧
        run.scene.cancelled = true ∧
        (run.runners.all fun runner => runner.phase.isAwait) = true ∧
        History.targetsOf run.scene.events "left" = [.pending, .running] ∧
        History.targetsOf last.scene.events "left" = [.pending, .running, .aborted] ∧
        History.targetsOf last.scene.events "right" = [.pending, .aborted] :=
    ⟨_, _, rfl, rfl, rfl, rfl, rfl, rfl, rfl⟩
  have prompt : ∀ name, .overtaken name ∉ stoppedSteps := by
    intro name member
    simp [stoppedSteps] at member
  have obedient : ∀ name result, .ended name result ∈ stoppedSteps →
      result.kind = .abort ∨ result.kind = .error := by
    intro name result member
    simp only [stoppedSteps, List.mem_cons, List.mem_append, List.mem_replicate, Step.ended.injEq,
      reduceCtorEq, and_false, or_self, or_false] at member
    rw [member.2]
    exact Or.inl rfl
  obtain ⟨launches, windUp, failures⟩ :=
    stopped_run_winds_up reached stopped (List.all_eq_true.1 waiting) prompt taken
  obtain ⟨runner, now, since, found, nowFound, _, windsUp, _⟩ :=
    windUp "right" (List.mem_cons_of_mem _ List.mem_cons_self)
  exact ⟨run, last, reached, taken, running, left, right, launches,
    ⟨runner, now, since, found, nowFound, windsUp⟩, failures obedient⟩

/-- Seeds by which the first of two tasks failed in an earlier run. -/
def failedFirst : KeyMap Seed := KeyMap.empty.insert "first" (.restored .failed)

/-- A task that is restored as a failure may become one after the stop. -/
theorem failure_restored_after_stop :
    ¬∀ (graph : Graph) (seeds : KeyMap Seed) (before steps : List Step) (run last : Run),
      (start graph 1 seeds .empty false false false none).steps? before = some run →
      run.scene.cancelled = true → (∀ runner ∈ run.runners, runner.phase.isAwait = true) →
      (∀ name, .overtaken name ∉ steps) → run.steps? steps = some last →
      (∀ name result, .ended name result ∈ steps → result.kind = .abort ∨ result.kind = .error) →
      History.failureCount graph.names last.scene.events =
        History.failureCount graph.names run.scene.events := by
  intro unchanged
  obtain ⟨run, last, reached, taken, stopped, waiting, none, one⟩ :
      ∃ run last, (start Graph.pair 1 failedFirst .empty false false false none).steps? [.cancel] =
          some run ∧ run.steps? [.runner "first", .runner "first"] = some last ∧
        run.scene.cancelled = true ∧
        (run.runners.all fun runner => runner.phase.isAwait) = true ∧
        History.failureCount Graph.pair.names run.scene.events = 0 ∧
        History.failureCount Graph.pair.names last.scene.events = 1 :=
    ⟨_, _, rfl, rfl, rfl, rfl, rfl, rfl⟩
  have same :=
    unchanged Graph.pair failedFirst [.cancel] [.runner "first", .runner "first"] run last
    reached stopped (List.all_eq_true.1 waiting) (fun _ member => by simp at member) taken
    (fun _ _ member => by simp at member)
  rw [none, one] at same
  cases same

end Run

end JobGraph
