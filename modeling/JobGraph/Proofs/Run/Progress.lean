import JobGraph.Proofs.Run.Permits
import JobGraph.Proofs.Run.ScheduleIndependence
import JobGraph.Proofs.Run.Work

/-!
# Every run can come to its end

As long as some task of a run has not ended, somebody can go on: a runner that waits for a
dependency is woken by its end, one that waits for a permit is served since every holder can go on,
and the aggregator takes what was sent.  Each of these steps leaves less to do.  So in a run that
nobody stops the work comes to an end, in whatever order it is done, and then all tasks have ended.
-/

namespace JobGraph

/-- A result of each kind. -/
def AttemptKind.sample : AttemptKind → AttemptResult
  | .success => .report ⟨false, false, []⟩
  | .failure => .report ⟨true, false, []⟩
  | .abort => .report ⟨true, true, []⟩
  | .error => .error .dataText

theorem AttemptKind.kind_sample (kind : AttemptKind) : kind.sample.kind = kind := by
  cases kind <;> rfl

namespace Run

variable {graph : Graph} {seeds : KeyMap Seed} {kinds : String → Nat → AttemptKind}
  {run next : Run} {step : Step}

/-! ## The aggregator serves as long as it is needed -/

/-- The run is declared complete only when all tasks have ended, and the aggregator ends only after
that or when nobody sends events any more. -/
structure Attended (run : Run) : Prop where
  complete : run.complete = true → run.aggregator.states.isSettled = true
  serving : run.aggregator.phase ≠ .serving → run.complete = true ∨ run.isQuiet = true
  ended : run.aggregator.phase = .ended →
    run.complete = true ∨
      run.isQuiet = true ∧ run.scene.events.length ≤ run.aggregator.taken

theorem isQuiet_of_found {before : Runner} (found : run.find? before.name = some before)
    (phase : before.phase ≠ .gone) : run.isQuiet = false := by
  rw [isQuiet, List.all_eq_false]
  exact ⟨before, mem_of_find? found, by simpa [Runner.isGone] using phase⟩

/-- A map in which all tasks have ended stays so. -/
theorem Orderly.isSettled_aggregate (orderly : Orderly graph seeds run) (sound : graph.Sound)
    {aggregator : Aggregator}
    (taken : run.aggregator.step? run.scene.events run.isQuiet run.complete = some aggregator)
    (settled : run.aggregator.states.isSettled = true) : aggregator.states.isSettled = true := by
  have changed : run.Change .aggregator { run with aggregator } := .aggregate taken
  have after := orderly.change changed
  rw [after.places.isSettled_iff sound.distinct]
  intro name listed
  have ended := (orderly.places.isSettled_iff sound.distinct).1 settled name listed
  have later : run.aggregator.taken ≤ aggregator.taken := by
    rcases Aggregator.step?_states taken with ⟨_, _, count, _⟩ | ⟨count, _⟩
    · rw [count]
      exact Nat.le_succ _
    · rw [count]
  have stays := orderly.sound.stateOf_of_terminal ended later
  exact stays.symm ▸ ended

theorem complete_of_aside (aside : step.IsAside) (taken : run.step? step = some next) :
    next.complete = run.complete ∨
      next.complete = true ∧ run.aggregator.states.isSettled = true := by
  rcases aside_cases aside taken with ⟨_, rfl⟩ | ⟨_, _, _, _, rfl⟩ | ⟨accepted, _, stepped⟩
  · exact Or.inl rfl
  · exact Or.inl rfl
  · rcases conductorStep?_cases stepped with ⟨_, settled, rfl⟩ | ⟨_, _, rfl⟩ | ⟨_, rfl⟩
    · exact Or.inr ⟨rfl, settled⟩
    · exact Or.inl rfl
    · rw [finalize_eq]
      exact Or.inl rfl

namespace Attended

theorem start {limit : Nat} {store : Store} {cancelled keeps saves : Bool}
    {slot : Option Snapshot} :
    Attended (start graph limit seeds store cancelled keeps saves slot) :=
  ⟨fun complete => (by cases complete), fun phase => absurd rfl phase,
    fun phase => (by cases phase)⟩

private theorem of_busy (attended : Attended run) (busy : run.isQuiet = false)
    (aggregator : next.aggregator = run.aggregator) (complete : next.complete = run.complete) :
    Attended next := by
  refine ⟨?_, ?_, ?_⟩
  · rw [aggregator, complete]
    exact attended.complete
  · rw [aggregator, complete]
    intro phase
    rcases attended.serving phase with done | quiet
    · exact Or.inl done
    · exact absurd (busy.symm.trans quiet) Bool.false_ne_true
  · rw [aggregator, complete]
    intro phase
    rcases attended.ended phase with done | ⟨quiet, _⟩
    · exact Or.inl done
    · exact absurd (busy.symm.trans quiet) Bool.false_ne_true

/-- No step of a run makes the aggregator end too early. -/
theorem change (attended : Attended run) (orderly : Orderly graph seeds run) (sound : graph.Sound)
    (change : run.Change step next) : Attended next := by
  cases change with
  | act found act => exact attended.of_busy (isQuiet_of_found found act.not_gone) rfl rfl
  | line found phase =>
      have busy := isQuiet_of_found found (by rw [phase]; exact fun same => by cases same)
      exact attended.of_busy busy rfl rfl
  | cancel => exact ⟨attended.complete, attended.serving, attended.ended⟩
  | aggregate taken =>
      refine ⟨fun complete => orderly.isSettled_aggregate sound taken (attended.complete complete),
        ?_, ?_⟩
      · intro phase
        rcases Aggregator.step?_cases taken with ⟨event, _, _, rfl⟩ | ⟨_, draining, rfl⟩ |
          ⟨_, _, closing, rfl⟩
        · cases event <;> exact attended.serving phase
        · exact attended.serving (by rw [draining]; exact fun same => by cases same)
        · exact (Bool.or_eq_true_iff.1 closing).symm
      · intro phase
        rcases Aggregator.step?_cases taken with ⟨event, _, notEnded, rfl⟩ |
          ⟨nothing, draining, rfl⟩ | ⟨_, _, _, rfl⟩
        · cases event <;> exact absurd phase notEnded
        · have past := List.getElem?_eq_none_iff.1 nothing
          have served := attended.serving (by rw [draining]; exact fun same => by cases same)
          exact served.imp id fun quiet => ⟨quiet, past⟩
        · cases phase
  | aside runners scene aggregator aside taken =>
      have quiet : next.isQuiet = run.isQuiet := by rw [isQuiet, isQuiet, runners]
      have complete := complete_of_aside aside taken
      have done : run.complete = true → next.complete = true := by
        intro before
        rcases complete with same | ⟨now, _⟩
        · exact same.trans before
        · exact now
      refine ⟨?_, ?_, ?_⟩
      · rw [aggregator]
        intro now
        rcases complete with same | ⟨_, settled⟩
        · exact attended.complete (same.symm.trans now)
        · exact settled
      · rw [aggregator, quiet]
        exact fun phase => (attended.serving phase).imp done id
      · rw [aggregator, quiet, scene]
        exact fun phase => (attended.ended phase).imp done id

end Attended

/-! ## Somebody can go on -/

/-- A runner goes on by itself unless it is gone, has an attempt or a pause under way, or waits for
others in vain. -/
theorem exists_step?_of_runner {handle? : String → Option Handle} {runner : Runner} {scene : Scene}
    (here : runner.phase ≠ .gone) (notAttempting : runner.phase ≠ .attempting)
    (notResting : runner.phase.pause? = none)
    (heard : scene.cancelled = false → ∀ dependency rest good,
      runner.phase = .waiting (dependency :: rest) good →
        ∃ handle state, handle? dependency = some handle ∧ handle.settled? = some state)
    (served : scene.cancelled = false → runner.phase = .queued →
      scene.gate.holds runner.name = true) :
    ∃ after, runner.step? handle? scene = some after := by
  cases phase : runner.phase with
  | gone => exact absurd phase here
  | attempting => exact absurd phase notAttempting
  | resting =>
      rw [phase] at notResting
      cases notResting
  | ready =>
      simp only [Runner.step?, phase]
      split
      · exact ⟨_, rfl⟩
      · split <;> exact ⟨_, rfl⟩
  | arrived =>
      simp only [Runner.step?, phase]
      split <;> exact ⟨_, rfl⟩
  | waiting rest good =>
      cases rest with
      | nil =>
          simp only [Runner.step?, phase]
          exact ⟨_, rfl⟩
      | cons dependency rest =>
          cases stopped : scene.cancelled with
          | true =>
              simp only [Runner.step?, phase, stopped, if_true]
              exact ⟨_, rfl⟩
          | false =>
              obtain ⟨handle, state, known, settled⟩ := heard stopped dependency rest good phase
              simp only [Runner.step?, phase, stopped, Bool.false_eq_true, if_false, known, settled,
                Option.map_some]
              exact ⟨_, rfl⟩
  | asking =>
      simp only [Runner.step?, phase]
      split
      · exact ⟨_, rfl⟩
      · split <;> exact ⟨_, rfl⟩
  | queued =>
      cases stopped : scene.cancelled with
      | true =>
          simp only [Runner.step?, phase, stopped, if_true]
          exact ⟨_, rfl⟩
      | false =>
          simp only [Runner.step?, phase, stopped, Bool.false_eq_true, if_false,
            served stopped phase, if_true]
          exact ⟨_, rfl⟩
  | reported result =>
      cases result with
      | report report =>
          simp only [Runner.step?, phase]
          exact ⟨_, rfl⟩
      | error error =>
          simp only [Runner.step?, phase]
          split <;> exact ⟨_, rfl⟩
  | launching | announcing | publishing | pausing | leaving =>
      simp only [Runner.step?, phase]
      exact ⟨_, rfl⟩

/-- The next step of a runner can be taken, or its attempt can end with any result, or its pause can
end. -/
def Enabled (run : Run) (name : String) : Prop :=
  (∃ next, run.step? (.runner name) = some next) ∨
    (∀ result, ∃ next, run.step? (.ended name result) = some next) ∨
      ∃ next, run.step? (.rested name) = some next

/-- A runner can go on unless it is gone or waits for others in vain. -/
theorem enabled_of_found {name : String} {runner : Runner} (found : run.find? name = some runner)
    (here : runner.phase ≠ .gone)
    (heard : run.scene.cancelled = false → ∀ dependency rest good,
      runner.phase = .waiting (dependency :: rest) good →
        ∃ handle state, run.handle? dependency = some handle ∧ handle.settled? = some state)
    (served : run.scene.cancelled = false → runner.phase = .queued →
      run.scene.gate.holds name = true) : run.Enabled name := by
  cases name_of_find? found
  by_cases attempting : runner.phase = .attempting
  · refine Or.inr (Or.inl fun result => ⟨run.put { runner with phase := .reported result }, ?_⟩)
    rw [step?, found, Option.bind_eq_bind, Option.bind_some, Runner.ended?, if_pos attempting,
      Option.map_some]
  by_cases resting : runner.phase.pause?.isSome
  · refine Or.inr (Or.inr ⟨run.put (if run.scene.cancelled then runner.abort
      else { runner with phase := .asking }), ?_⟩)
    rw [step?, found, Option.bind_eq_bind, Option.bind_some, Runner.rested?, if_pos resting,
      Option.map_some]
  obtain ⟨⟨after, scene⟩, stepped⟩ : ∃ after, runner.step? run.handle? run.scene = some after :=
    exists_step?_of_runner here attempting (Option.not_isSome_iff_eq_none.1 resting) heard served
  refine Or.inl ⟨{ run.put after with scene }, ?_⟩
  rw [step?, found, Option.bind_eq_bind, Option.bind_some, stepped]
  rfl

/-- Who holds a permit can go on. -/
theorem Permitted.enabled_of_holder (permitted : Permitted run) {name : String}
    (held : name ∈ run.scene.gate.held) : run.Enabled name := by
  obtain ⟨runner, found, may⟩ := permitted.holders name held
  refine enabled_of_found found ?_ ?_ ?_
  · intro gone
    rw [gone] at may
    cases may
  · intro _ dependency rest good waiting
    rw [waiting] at may
    cases may
  · intro _ _
    simpa [Gate.holds] using held

/-- As long as some runner is not gone, somebody can go on. -/
theorem Permitted.enabled_or_gone (permitted : Permitted run) (orderly : Orderly graph seeds run)
    (sound : graph.Sound)
    (waits : ∀ {name runner}, run.find? name = some runner → ∀ {dependency rest good},
      runner.phase = .waiting (dependency :: rest) good → dependency ∈ runner.task.dependsOn) :
    (∃ name, run.Enabled name) ∨ ∀ name ∈ graph.names, ∀ runner, run.find? name = some runner →
      runner.phase = .gone := by
  by_cases goes : ∃ name, run.Enabled name
  · exact Or.inl goes
  right
  refine sound.induct
    (P := fun name => ∀ runner, run.find? name = some runner → runner.phase = .gone) ?_
  intro task member inductionHypothesis runner found
  by_contra here
  apply goes
  refine ⟨_, enabled_of_found found here ?_ ?_⟩
  · intro _ dependency rest good waiting
    have isTask : runner.task = task := orderly.task_eq sound member found
    have depends : dependency ∈ task.dependsOn := isTask ▸ waits found waiting
    have listed := sound.known task member dependency depends
    obtain ⟨other, otherFound⟩ := orderly.exists_runner listed
    have gone := inductionHypothesis dependency depends other otherFound
    refine ⟨other.handle, other.state, by rw [handle?, otherFound, Option.map_some], ?_⟩
    simp [Handle.settled?, Runner.handle, Runner.isGone, gone]
  · intro _ queued
    by_contra notServed
    have stands := permitted.queued _ runner found queued
    have waits : task.name ∈ run.scene.gate.waiting :=
      stands.resolve_left fun holds => notServed (by simpa [Gate.holds] using holds)
    have full := permitted.fair.full (List.ne_nil_of_mem waits)
    -- The gate is full, so somebody holds a permit, and that one can go on.
    cases held : run.scene.gate.held with
    | nil =>
        rw [Gate.hasRoom, held] at full
        simp at full
    | cons holder others =>
        exact goes ⟨holder, permitted.enabled_of_holder (held ▸ List.mem_cons_self)⟩

/-! ## In a run that nobody stops -/

/-- The invariants of a run that nobody stops. -/
structure Lively (graph : Graph) (seeds : KeyMap Seed) (kinds : String → Nat → AttemptKind)
    (run : Run) : Prop where
  regular : Regular graph seeds kinds run
  permitted : Permitted run
  attended : Attended run
  going : run.scene.cancelled = false

/-- The steps of work in a run that nobody stops. -/
def Working (kinds : String → Nat → AttemptKind) (run : Run) (step : Step) : Prop :=
  run.Undisturbed kinds step ∧ step.IsWork

/-- There is work that can be done. -/
def CanGoOn (kinds : String → Nat → AttemptKind) (run : Run) : Prop :=
  ∃ step next, run.Working kinds step ∧ run.step? step = some next

/-- An attempt can end with any result, so also with one of the kind that is foreseen. -/
theorem Enabled.canGoOn {name : String} (enabled : run.Enabled name) : CanGoOn kinds run := by
  rcases enabled with ⟨next, taken⟩ | ends | ⟨next, taken⟩
  · exact ⟨.runner name, next, ⟨trivial, trivial⟩, taken⟩
  · cases found : run.find? name with
    | none =>
        obtain ⟨next, taken⟩ := ends AttemptKind.success.sample
        rw [step?, found] at taken
        cases taken
    | some runner =>
        obtain ⟨next, taken⟩ := ends (kinds name runner.attempts).sample
        refine ⟨.ended name _, next, ⟨?_, trivial⟩, taken⟩
        intro other otherFound
        cases found.symm.trans otherFound
        exact AttemptKind.kind_sample _
  · exact ⟨.rested name, next, ⟨trivial, trivial⟩, taken⟩

/-- As long as some task has not ended, somebody can go on. -/
theorem Lively.canGoOn (lively : Lively graph seeds kinds run) (sound : graph.Sound)
    (restores : seeds.RestoresCleared) (unsettled : run.aggregator.states.isSettled = false) :
    CanGoOn kinds run := by
  have orderly := lively.regular.orderly
  rcases lively.permitted.enabled_or_gone orderly sound lively.regular.careful.waits with
    ⟨name, enabled⟩ | gone
  · exact enabled.canGoOn
  have ended : ∀ name ∈ graph.names,
      (History.stateOf run.scene.events name).isTerminal = true := by
    intro name listed
    obtain ⟨runner, found⟩ := orderly.exists_runner listed
    have phase := gone name listed runner found
    rw [orderly.logged found, Runner.logged, phase]
    exact orderly.isTerminal_of_gone restores found phase
  have notComplete : run.complete ≠ true := by
    intro complete
    rw [lively.attended.complete complete] at unsettled
    cases unsettled
  by_cases all : run.scene.events.length ≤ run.aggregator.taken
  · have settled : run.aggregator.states.isSettled = true := by
      rw [orderly.places.isSettled_iff sound.distinct, List.take_of_length_le all]
      exact ended
    rw [settled] at unsettled
    cases unsettled
  · have inside : run.aggregator.taken < run.scene.events.length := Nat.lt_of_not_le all
    have notEnded : run.aggregator.phase ≠ .ended := by
      intro phase
      rcases lively.attended.ended phase with complete | ⟨_, past⟩
      · exact notComplete complete
      · exact all past
    have there := List.getElem?_eq_getElem inside
    have taken : run.step? .aggregator =
        some { run with
          aggregator := run.aggregator.take run.scene.events[run.aggregator.taken] } := by
      rw [step?, Aggregator.step?, there]
      cases phase : run.aggregator.phase with
      | ended => exact absurd phase notEnded
      | serving | draining => rfl
    exact ⟨.aggregator, _, ⟨trivial, trivial⟩, taken⟩

/-! ## Whole courses -/

theorem Lively.start {limit : Nat} {store : Store} {keeps saves : Bool} {slot : Option Snapshot} :
    Lively graph seeds kinds (start graph limit seeds store false keeps saves slot) :=
  ⟨Regular.start, Permitted.start, Attended.start, rfl⟩

theorem Lively.change (lively : Lively graph seeds kinds run) (sound : graph.Sound)
    (restores : seeds.RestoresCleared) (undisturbed : run.Undisturbed kinds step)
    (change : run.Change step next) : Lively graph seeds kinds next :=
  ⟨lively.regular.change sound restores undisturbed.follows change,
    lively.permitted.change change, lively.attended.change lively.regular.orderly sound change,
    undisturbed.going change lively.going⟩

theorem Lively.course {first : Run} {steps : List Step} (lively : Lively graph seeds kinds first)
    (sound : graph.Sound) (restores : seeds.RestoresCleared)
    (course : Course (Undisturbed kinds) first steps run) : Lively graph seeds kinds run :=
  course.invariant lively fun lively undisturbed change =>
    lively.change sound restores undisturbed change

/-- There is an end to the work of a run, and then all tasks have ended. -/
def Settles (kinds : String → Nat → AttemptKind) (run : Run) : Prop :=
  ∃ bound, ∀ steps last, Course (Working kinds) run steps last →
    steps.length ≤ bound ∧
      ((∀ step, last.Working kinds step → last.step? step = none) →
        last.aggregator.states.isSettled = true)

/-- Every step of work uses up some of what is left to do. -/
theorem Orderly.work_le {steps : List Step} {last : Run} (orderly : Orderly graph seeds run)
    (sound : graph.Sound) (course : Course (Working kinds) run steps last) :
    steps.length + last.remaining ≤ run.remaining := by
  induction course with
  | start => exact Nat.le_of_eq (Nat.zero_add _)
  | step course working taken inductionHypothesis =>
      have change := change_of_step? taken
      have less := (orderly.course course).remaining_lt sound working.2 change
      rw [List.length_append, List.length_singleton]
      omega

theorem Lively.settles (lively : Lively graph seeds kinds run) (sound : graph.Sound)
    (restores : seeds.RestoresCleared) : run.Settles kinds := by
  refine ⟨run.remaining, ?_⟩
  intro steps last course
  have here := lively.course sound restores (course.mono And.left)
  have spent := lively.regular.orderly.work_le sound course
  refine ⟨by omega, ?_⟩
  intro stuck
  by_contra unsettled
  obtain ⟨step, next, working, taken⟩ :=
    here.canGoOn sound restores (Bool.eq_false_iff.2 unsettled)
  rw [stuck step working] at taken
  cases taken

end Run

end JobGraph
