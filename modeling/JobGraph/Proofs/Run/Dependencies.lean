import JobGraph.Proofs.Run.Records

/-!
# What runners know of their dependencies

A runner goes through its dependencies in order and waits until each has ended; it remembers only
whether all of them so far let it run.  `Runner.Informed` says what must therefore be true of the
dependencies at each phase.  It stays true since a task that has ended never leaves its end.
-/

namespace JobGraph

/-- The ends of a task that let the tasks depending on it run. -/
def TaskState.Clears (state : TaskState) : Prop := state = .completed ∨ state = .skip

theorem TaskState.Clears.isTerminal {state : TaskState} (clears : state.Clears) :
    state.isTerminal = true := by
  rcases clears with rfl | rfl
  · rfl
  · rfl

theorem TaskState.clears_of_not_blocks {state : TaskState} (ended : state.isTerminal = true)
    (lets : state.blocksDependents = false) : state.Clears := by
  cases state with
  | completed => exact Or.inl rfl
  | skip => exact Or.inr rfl
  | init | pending | running => cases ended
  | failed | defaulted | aborted => cases lets

theorem TaskState.isTerminal_of_blocks {state : TaskState}
    (blocks : state.blocksDependents = true) :
    state.isTerminal = true := by
  cases state with
  | failed | defaulted | aborted => rfl
  | init | pending | running | completed | skip => cases blocks

/-- What is taken over from an earlier run was completed or skipped there. -/
def KeyMap.RestoresCleared (seeds : KeyMap Seed) : Prop :=
  ∀ name state, seeds.find? name = some (.restored state) → state.Clears

theorem KeyMap.RestoresCleared.clears {seeds : KeyMap Seed} (restores : seeds.RestoresCleared)
    {name : String} {state : TaskState} (seed : Run.seedOf seeds name = .restored state) :
    state.Clears := by
  unfold Run.seedOf at seed
  cases known : seeds.find? name with
  | none => simp [known] at seed
  | some other =>
      rw [known, Option.getD_some] at seed
      exact restores name state (seed ▸ known)

namespace Run

/-- The task has ended so that it lets others run, and that is published. -/
def Cleared (run : Run) (name : String) : Prop :=
  ∃ runner, run.find? name = some runner ∧ runner.state.Clears

/-- The task has ended so that it keeps others from running, and that is published. -/
def Blocked (run : Run) (name : String) : Prop :=
  ∃ runner, run.find? name = some runner ∧ runner.state.blocksDependents = true

theorem Cleared.not_blocked {run : Run} {name : String} (cleared : run.Cleared name) :
    ¬run.Blocked name := by
  intro blocked
  obtain ⟨runner, found, blocks⟩ := blocked
  obtain ⟨other, otherFound, clears⟩ := cleared
  cases found.symm.trans otherFound
  rcases clears with completed | skipped
  · rw [completed] at blocks
    cases blocks
  · rw [skipped] at blocks
    cases blocks

/-- What is known at one moment of a run is known at another. -/
structure Keeps (run next : Run) : Prop where
  cleared : ∀ {name}, run.Cleared name → next.Cleared name
  blocked : ∀ {name}, run.Blocked name → next.Blocked name
  cancelled : run.scene.cancelled = true → next.scene.cancelled = true

end Run

namespace Runner

/-- All dependencies let the task run. -/
def IsCleared (run : Run) (runner : Runner) : Prop :=
  ∀ dependency ∈ runner.task.dependsOn, run.Cleared dependency

/-- What the dependencies have come to when a task that takes part in the run is in a state. -/
def Warranted (run : Run) (runner : Runner) : TaskState → Prop
  | .init | .pending => True
  | .running | .completed | .failed | .skip => runner.IsCleared run
  | .defaulted => ∃ dependency ∈ runner.task.dependsOn, run.Blocked dependency
  | .aborted => run.scene.cancelled = true ∨ runner.IsCleared run

/-- What the dependencies of a runner have come to, by its phase. -/
def Informed (run : Run) (runner : Runner) : Prop :=
  match runner.phase with
  | .ready | .arrived => True
  | .waiting rest good =>
    ∃ heard, runner.task.dependsOn = heard ++ rest ∧
      if good then ∀ dependency ∈ heard, run.Cleared dependency
      else ∃ dependency ∈ heard, run.Blocked dependency
  | .asking | .queued | .launching | .attempting | .reported _ | .pausing | .resting _ =>
    runner.IsCleared run
  | .announcing target next | .publishing target next =>
    (¬runner.IsRestored → runner.Warranted run target) ∧
      (next = .launch ∨ next = .pause → runner.IsCleared run)
  | .leaving | .gone => ¬runner.IsRestored → runner.Warranted run runner.state

variable {run later : Run} {runner next : Runner} {scene : Scene} {step : Step}

theorem IsCleared.mono (keeps : run.Keeps later) (cleared : runner.IsCleared run) :
    runner.IsCleared later :=
  fun dependency depends => keeps.cleared (cleared dependency depends)

theorem Warranted.mono (keeps : run.Keeps later) {state : TaskState}
    (warranted : runner.Warranted run state) : runner.Warranted later state := by
  cases state with
  | init | pending => trivial
  | running | completed | failed | skip => exact IsCleared.mono keeps warranted
  | defaulted =>
      obtain ⟨dependency, depends, blocked⟩ := warranted
      exact ⟨dependency, depends, keeps.blocked blocked⟩
  | aborted => exact warranted.imp keeps.cancelled (IsCleared.mono keeps)

/-- What a runner knows stays true. -/
theorem Informed.mono (keeps : run.Keeps later) (informed : runner.Informed run) :
    runner.Informed later := by
  cases phase : runner.phase with
  | ready | arrived => simp only [Informed, phase]
  | waiting rest good =>
      simp only [Informed, phase] at informed ⊢
      obtain ⟨heard, split, known⟩ := informed
      refine ⟨heard, split, ?_⟩
      cases good with
      | true => exact fun dependency member => keeps.cleared (known dependency member)
      | false =>
          obtain ⟨dependency, member, blocked⟩ := known
          exact ⟨dependency, member, keeps.blocked blocked⟩
  | asking | queued | launching | attempting | reported | pausing | resting =>
      simp only [Informed, phase] at informed ⊢
      exact informed.mono keeps
  | announcing target further | publishing target further =>
      simp only [Informed, phase] at informed ⊢
      exact ⟨fun seed => (informed.1 seed).mono keeps, fun more => (informed.2 more).mono keeps⟩
  | leaving | gone =>
      simp only [Informed, phase] at informed ⊢
      exact fun seed => (informed seed).mono keeps

/-- A runner about to end knows what its end asks for. -/
theorem informed_announce {target : TaskState} (warranted : runner.Warranted run target) :
    (runner.announce target .leave).Informed run := by
  refine ⟨fun _ => warranted, ?_⟩
  rintro (launch | pause)
  · cases launch
  · cases pause

/-- Whatever happens to a runner, it acts on what it knows of its dependencies. -/
theorem Informed.act (informed : runner.Informed run)
    (settles : ∀ {name handle state}, run.handle? name = some handle →
      handle.settled? = some state → run.Cleared name ∧ state.blocksDependents = false ∨
        run.Blocked name ∧ state.blocksDependents = true)
    (known : ∀ dependency ∈ runner.task.dependsOn, run.handle? dependency ≠ none)
    (act : runner.Act run.handle? run.scene step next scene) : next.Informed run := by
  cases act with
  | restore phase seed =>
      refine ⟨fun notRestored => absurd ⟨_, seed⟩ notRestored, ?_⟩
      rintro (launch | pause)
      · cases launch
      · cases pause
  | start phase =>
      refine ⟨fun _ => trivial, ?_⟩
      rintro (launch | pause)
      · cases launch
      · cases pause
  | stop phase seed stopped => exact informed_announce (Or.inl stopped)
  | arrive phase => exact ⟨[], rfl, fun dependency member => by cases member⟩
  | hear phase knownHandle settled turn =>
      rename_i dependency rest good handle state
      simp only [Informed, phase] at informed
      obtain ⟨heard, split, sofar⟩ := informed
      refine ⟨heard ++ [dependency], ?_, ?_⟩
      · rw [split, List.append_assoc, List.singleton_append]
      · rcases settles knownHandle settled with ⟨cleared, lets⟩ | ⟨blocked, blocks⟩
        · rw [lets]
          cases good with
          | true =>
              intro other member
              rcases List.mem_append.1 member with earlier | isLast
              · exact sofar other earlier
              · exact List.mem_singleton.1 isLast ▸ cleared
          | false =>
              obtain ⟨other, member, otherBlocked⟩ := sofar
              exact ⟨other, List.mem_append_left _ member, otherBlocked⟩
        · rw [blocks, Bool.not_true, Bool.and_false]
          exact ⟨dependency, by simp, blocked⟩
  | miss phase unknown =>
      simp only [Informed, phase] at informed
      obtain ⟨heard, split, _⟩ := informed
      exact absurd unknown (known _ (by simp [split]))
  | giveUp phase =>
      simp only [Informed, phase] at informed
      obtain ⟨heard, split, dependency, member, blocked⟩ := informed
      exact informed_announce ⟨dependency, by simp [split, member], blocked⟩
  | skip phase =>
      simp only [Informed, phase, List.append_nil] at informed
      obtain ⟨heard, split, cleared⟩ := informed
      exact informed_announce fun dependency depends => cleared dependency (split ▸ depends)
  | clear phase =>
      simp only [Informed, phase, List.append_nil] at informed
      obtain ⟨heard, split, cleared⟩ := informed
      exact fun dependency depends => cleared dependency (split ▸ depends)
  | pass phase | enter phase =>
      simp only [Informed, phase] at informed
      exact ⟨fun _ => informed, fun _ => informed⟩
  | withdraw phase stopped => exact informed_announce (Or.inl stopped)
  | obey phase =>
      simp only [Informed, phase] at informed
      exact informed_announce (Or.inr informed)
  | succeed phase | exhaust phase | fail phase =>
      simp only [Informed, phase] at informed
      exact informed_announce informed
  | retry phase =>
      simp only [Informed, phase] at informed
      exact ⟨fun _ => trivial, fun _ => informed⟩
  | queue phase | launch phase | finish phase | release phase | wake phase | leave phase
  | announce phase =>
      simp only [Informed, phase] at informed
      exact informed
  | publish phase =>
      rename_i target further
      simp only [Informed, phase] at informed
      cases further with
      | wait => trivial
      | launch => exact informed.2 (Or.inl rfl)
      | pause => exact informed.2 (Or.inr rfl)
      | leave => exact informed.1

end Runner

/-! ## All runners -/

namespace Run

variable {graph : Graph} {seeds : KeyMap Seed} {run next : Run} {step : Step}

/-- Every runner knows of its dependencies what its phase asks for. -/
def Careful (run : Run) : Prop :=
  ∀ name runner, run.find? name = some runner → runner.Informed run

/-- Nothing that has ended is left again. -/
theorem Orderly.keeps (orderly : Orderly graph seeds run) (change : run.Change step next) :
    run.Keeps next := by
  cases change with
  | act found act =>
      rename_i before runner scene
      have stays : ∀ {name other}, run.find? name = some other → other.state.isTerminal = true →
          ∃ new, ({ run.put runner with scene } : Run).find? name = some new ∧
            new.state = other.state := by
        intro name other otherFound ended
        rw [find?_act found act.name scene]
        by_cases here : name = before.name
        · subst here
          cases found.symm.trans otherFound
          rw [if_pos rfl]
          exact ⟨runner, rfl, (orderly.fits found).state_of_terminal ended act⟩
        · rw [if_neg here]
          exact ⟨other, otherFound, rfl⟩
      refine ⟨?_, ?_, ?_⟩
      · rintro name ⟨other, otherFound, clears⟩
        obtain ⟨new, newFound, same⟩ := stays otherFound clears.isTerminal
        exact ⟨new, newFound, same ▸ clears⟩
      · rintro name ⟨other, otherFound, blocks⟩
        obtain ⟨new, newFound, same⟩ := stays otherFound (TaskState.isTerminal_of_blocks blocks)
        exact ⟨new, newFound, same ▸ blocks⟩
      · intro stopped
        exact act.cancelled.trans stopped
  | line | aggregate => exact ⟨id, id, id⟩
  | cancel => exact ⟨id, id, fun _ => rfl⟩
  | aside runners scene aggregator =>
      have look := find?_of_runners runners
      refine ⟨?_, ?_, ?_⟩
      · rintro name ⟨other, otherFound, clears⟩
        exact ⟨other, look.symm ▸ otherFound, clears⟩
      · rintro name ⟨other, otherFound, blocks⟩
        exact ⟨other, look.symm ▸ otherFound, blocks⟩
      · intro stopped
        rw [scene]
        exact stopped

/-- A task that is not waited for any more has ended. -/
theorem Orderly.isTerminal_of_settled (orderly : Orderly graph seeds run)
    (restores : seeds.RestoresCleared) {name : String} {runner : Runner}
    (found : run.find? name = some runner) {state : TaskState}
    (settled : runner.handle.settled? = some state) :
    runner.state = state ∧ state.isTerminal = true := by
  rw [Handle.settled?] at settled
  split at settled
  next closed =>
    cases settled
    refine ⟨rfl, ?_⟩
    rcases Bool.or_eq_true_iff.1 closed with ended | gone
    · exact ended
    · have fits := orderly.fits found
      have phase : runner.phase = .gone := by simpa [Runner.handle, Runner.isGone] using gone
      simp only [Runner.Fits, phase] at fits
      by_cases restored : runner.IsRestored
      · have seed := fits.1 restored
        rw [(orderly.staffed found).2] at seed
        exact (restores.clears seed).isTerminal
      · exact fits.2.1 restored
  next => cases settled

theorem Orderly.isTerminal_of_gone (orderly : Orderly graph seeds run)
    (restores : seeds.RestoresCleared) {name : String} {runner : Runner}
    (found : run.find? name = some runner) (gone : runner.phase = .gone) :
    runner.state.isTerminal = true := by
  have settled : runner.handle.settled? = some runner.state := by
    simp [Handle.settled?, Runner.handle, Runner.isGone, gone]
  exact (orderly.isTerminal_of_settled restores found settled).2

/-- No step of a run makes a runner act against what it can know. -/
theorem Careful.change (careful : Careful run) (orderly : Orderly graph seeds run)
    (sound : graph.Sound) (restores : seeds.RestoresCleared) (change : run.Change step next) :
    Careful next := by
  have keeps := orderly.keeps change
  cases change with
  | act found act =>
      rename_i before runner scene
      have settles : ∀ {name handle state}, run.handle? name = some handle →
          handle.settled? = some state → run.Cleared name ∧ state.blocksDependents = false ∨
            run.Blocked name ∧ state.blocksDependents = true := by
        intro name handle state known settled
        obtain ⟨other, otherFound, rfl⟩ := Option.map_eq_some_iff.1 known
        obtain ⟨same, ended⟩ := orderly.isTerminal_of_settled restores otherFound settled
        cases blocks : state.blocksDependents with
        | false =>
            exact Or.inl
              ⟨⟨other, otherFound, same ▸ TaskState.clears_of_not_blocks ended blocks⟩, rfl⟩
        | true => exact Or.inr ⟨⟨other, otherFound, same ▸ blocks⟩, rfl⟩
      have known : ∀ dependency ∈ before.task.dependsOn, run.handle? dependency ≠ none := by
        intro dependency depends
        have listed := sound.known before.task (orderly.staffed found).1 dependency depends
        obtain ⟨other, otherFound⟩ := orderly.exists_runner listed
        simp [handle?, otherFound]
      intro name other otherFound
      rcases found_act found act.name otherFound with ⟨_, rfl⟩ | ⟨_, earlier⟩
      · exact ((careful _ _ found).act settles known act).mono keeps
      · exact (careful name other earlier).mono keeps
  | line | cancel | aggregate =>
      intro name other otherFound
      exact Runner.Informed.mono keeps (careful name other otherFound)
  | aside runners scene aggregator =>
      intro name other otherFound
      exact (careful name other (find?_of_runners runners ▸ otherFound)).mono keeps

theorem Careful.start {limit : Nat} {store : Store} {cancelled keeps saves : Bool}
    {slot : Option Snapshot} :
    Careful (start graph limit seeds store cancelled keeps saves slot) := by
  intro name runner found
  obtain ⟨task, _, same⟩ := List.mem_map.1 (mem_of_find? found)
  cases same
  trivial

/-- In every course of a run, runners know of their dependencies what they act on. -/
theorem Careful.course {allowed : Run → Step → Prop} {first : Run} {steps : List Step}
    (course : Course allowed first steps run) (orderly : Orderly graph seeds first)
    (sound : graph.Sound) (restores : seeds.RestoresCleared) (start : Careful first) :
    Careful run := by
  have both : Orderly graph seeds run ∧ Careful run := by
    refine course.invariant (P := fun run => Orderly graph seeds run ∧ Careful run)
      ⟨orderly, start⟩ ?_
    rintro run next step ⟨orderly, careful⟩ _ change
    exact ⟨orderly.change change, careful.change orderly sound restores change⟩
  exact both.2

/-- A runner waits for nothing but dependencies of its task. -/
theorem Careful.waits (careful : Careful run) {name : String} {runner : Runner}
    (found : run.find? name = some runner) {dependency : String} {rest : List String} {good : Bool}
    (waiting : runner.phase = .waiting (dependency :: rest) good) :
    dependency ∈ runner.task.dependsOn := by
  have informed := careful name runner found
  simp only [Runner.Informed, waiting] at informed
  obtain ⟨heard, split, _⟩ := informed
  rw [split]
  simp

end Run

/-! ## Who gives a task up

Whatever is taken over from an earlier run, a task is given up only because of a dependency that
keeps it from running. -/

namespace Runner

/-- Some dependency keeps the task from running. -/
def IsBlocked (run : Run) (runner : Runner) : Prop :=
  ∃ dependency ∈ runner.task.dependsOn, run.Blocked dependency

/-- The runner waits for dependencies of its task, and if it gives its task up one of them is to
blame. -/
structure Blames (run : Run) (runner : Runner) : Prop where
  waits : ∀ {rest good}, runner.phase = .waiting rest good →
    (∀ dependency ∈ rest, dependency ∈ runner.task.dependsOn) ∧
      (good = false → runner.IsBlocked run)
  ends : ¬runner.IsRestored → runner.claimed = .defaulted → runner.IsBlocked run

variable {handle? : String → Option Handle} {run later : Run} {runner next : Runner}
  {scene after : Scene} {step : Step}

theorem Act.defaulted_cases (act : runner.Act handle? scene step next after)
    (notRestored : ¬runner.IsRestored) (defaulted : next.claimed = .defaulted) :
    runner.claimed = .defaulted ∨ runner.phase = .waiting [] false := by
  cases act with
  | restore _ seed => exact absurd ⟨_, seed⟩ notRestored
  | giveUp phase => exact Or.inr phase
  | start | stop | skip | pass | enter | withdraw | obey | succeed | exhaust | retry | fail =>
      cases defaulted
  | publish phase =>
      rename_i target further
      left
      cases further <;> simpa [claimed, phase, Next.phase] using defaulted
  | arrive phase | hear phase | miss phase | clear phase | queue phase | launch phase | finish phase
  | announce phase | release phase | wake phase | leave phase =>
      left
      simpa [claimed, phase] using defaulted

theorem Blames.mono (keeps : run.Keeps later) (blames : runner.Blames run) :
    runner.Blames later := by
  have blocked : runner.IsBlocked run → runner.IsBlocked later :=
    fun ⟨dependency, depends, blocks⟩ => ⟨dependency, depends, keeps.blocked blocks⟩
  refine ⟨?_, ?_⟩
  · intro rest good phase
    exact ⟨(blames.waits phase).1, fun bad => blocked ((blames.waits phase).2 bad)⟩
  · exact fun notRestored defaulted => blocked (blames.ends notRestored defaulted)

theorem Blames.act (blames : runner.Blames run)
    (known : ∀ dependency ∈ runner.task.dependsOn, run.handle? dependency ≠ none)
    (act : runner.Act run.handle? scene step next after) : next.Blames run := by
  refine ⟨?_, ?_⟩
  · intro rest good phase
    cases act with
    | arrive =>
        cases phase
        exact ⟨fun _ member => member, fun bad => by cases bad⟩
    | hear waits knownHandle settled turn =>
        rename_i dependency others before handle state
        injection phase with same both
        cases same
        obtain ⟨within, blocked⟩ := blames.waits waits
        refine ⟨fun other member => within other (List.mem_cons_of_mem _ member), ?_⟩
        intro bad
        rcases Bool.and_eq_false_iff.1 (both.trans bad) with already | blocks
        · exact blocked already
        · obtain ⟨other, otherFound, rfl⟩ := Option.map_eq_some_iff.1 knownHandle
          refine ⟨dependency, within dependency List.mem_cons_self, other, otherFound, ?_⟩
          rw [Handle.settled?] at settled
          split at settled
          next =>
            cases settled
            simpa [Runner.handle] using blocks
          next => cases settled
    | miss waits unknown =>
        exact absurd unknown (known _ ((blames.waits waits).1 _ List.mem_cons_self))
    | publish here =>
        rename_i target further
        cases further <;> cases phase
    | _ => cases phase
  · intro notRestored defaulted
    have notBefore : ¬runner.IsRestored := fun ⟨state, seed⟩ =>
      notRestored ⟨state, act.seed.trans seed⟩
    rw [IsBlocked, act.task]
    rcases act.defaulted_cases notBefore defaulted with before | waited
    · exact blames.ends notBefore before
    · exact (blames.waits waited).2 rfl

end Runner

namespace Run

variable {graph : Graph} {seeds : KeyMap Seed} {run next : Run} {step : Step}

/-- Every runner that gives its task up has a dependency to blame. -/
def Blaming (run : Run) : Prop :=
  ∀ name runner, run.find? name = some runner → runner.Blames run

theorem Blaming.start {limit : Nat} {store : Store} {cancelled keeps saves : Bool}
    {slot : Option Snapshot} :
    Blaming (start graph limit seeds store cancelled keeps saves slot) := by
  intro name runner found
  obtain ⟨task, _, same⟩ := List.mem_map.1 (mem_of_find? found)
  cases same
  exact ⟨fun phase => (by cases phase), fun _ defaulted => (by cases defaulted)⟩

theorem Blaming.change (blaming : Blaming run) (orderly : Orderly graph seeds run)
    (sound : graph.Sound) (change : run.Change step next) : Blaming next := by
  have keeps := orderly.keeps change
  cases change with
  | act found act =>
      rename_i before runner scene
      have known : ∀ dependency ∈ before.task.dependsOn, run.handle? dependency ≠ none := by
        intro dependency depends
        have listed := sound.known before.task (orderly.staffed found).1 dependency depends
        obtain ⟨other, otherFound⟩ := orderly.exists_runner listed
        simp [handle?, otherFound]
      intro name other otherFound
      rcases found_act found act.name otherFound with ⟨_, rfl⟩ | ⟨_, earlier⟩
      · exact ((blaming _ _ found).act known act).mono keeps
      · exact (blaming name other earlier).mono keeps
  | line | cancel | aggregate =>
      intro name other otherFound
      exact Runner.Blames.mono keeps (blaming name other otherFound)
  | aside runners =>
      intro name other otherFound
      exact (blaming name other (find?_of_runners runners ▸ otherFound)).mono keeps

end Run

end JobGraph
