import JobGraph.Proofs.DependencyOrder
import JobGraph.Proofs.Run.History
import JobGraph.Proofs.Run.Stages

/-!
# The records of a run

Three parts of a run tell the state of a task: its runner, the events, and the published map.
`Run.Orderly` says how far they agree at every moment.  A runner that is between the event and the
publication of a new state is ahead of what it published; the published map is behind the events by
those that are not taken yet.
-/

namespace JobGraph

namespace Runner

/-- The state that the events tell of the task of a runner. -/
def logged (runner : Runner) : TaskState :=
  match runner.phase with
  | .publishing target _ => target
  | _ => runner.state

/-- The state that a runner is in or about to announce. -/
def claimed (runner : Runner) : TaskState :=
  match runner.phase with
  | .announcing target _ | .publishing target _ => target
  | _ => runner.state

theorem logged_of_heedsStop {runner : Runner} (heeds : runner.phase.heedsStop = true) :
    runner.logged = runner.state := by
  cases phase : runner.phase with
  | publishing => simp [phase, Phase.heedsStop] at heeds
  | _ => simp [logged, phase]

/-- A runner whose task has ended for the events stays with that end. -/
theorem Fits.claimed_of_logged {runner : Runner} (fits : runner.Fits)
    (ended : runner.logged.isTerminal = true) : runner.claimed = runner.logged := by
  cases phase : runner.phase with
  | announcing target next =>
      simp only [Fits, phase] at fits
      simp only [logged, phase] at ended
      exact absurd (fits.source_active.symm.trans ended) Bool.false_ne_true
  | _ => simp [claimed, logged, phase]

/-- A runner that has published an end has nothing else to say. -/
theorem Fits.logged_of_terminal {runner : Runner} (fits : runner.Fits)
    (ended : runner.state.isTerminal = true) : runner.logged = runner.state := by
  rcases fits.ended_of_terminal ended with leaving | gone
  · simp only [logged, leaving]
  · simp only [logged, gone]

theorem Fits.claimed_of_terminal {runner : Runner} (fits : runner.Fits)
    (ended : runner.state.isTerminal = true) : runner.claimed = runner.state := by
  have same := fits.logged_of_terminal ended
  rw [fits.claimed_of_logged (same.symm ▸ ended), same]

/-- A runner that claims an end is about to publish it, or has published it. -/
theorem Fits.end_cases {runner : Runner} (fits : runner.Fits)
    (ended : runner.claimed.isTerminal = true) :
    (∃ target further, runner.claimed = target ∧ runner.MayMove target further ∧
      (runner.phase = .announcing target further ∨ runner.phase = .publishing target further)) ∨
    (runner.claimed = runner.state ∧ (runner.phase = .leaving ∨ runner.phase = .gone)) := by
  cases phase : runner.phase with
  | announcing target further =>
      simp only [Fits, phase] at fits
      exact Or.inl ⟨target, further, by simp only [claimed, phase], fits, Or.inl rfl⟩
  | publishing target further =>
      simp only [Fits, phase] at fits
      exact Or.inl ⟨target, further, by simp only [claimed, phase], fits, Or.inr rfl⟩
  | _ =>
      have same : runner.claimed = runner.state := by simp only [claimed, phase]
      rw [same] at ended
      exact Or.inr ⟨same, phase ▸ fits.ended_of_terminal ended⟩

namespace Act

variable {handle? : String → Option Handle} {runner next : Runner} {scene after : Scene}
  {step : Step}

/-- A runner sticks to the end that it claims. -/
theorem claimed_of_ended (act : runner.Act handle? scene step next after) (fits : runner.Fits)
    (ended : runner.claimed.isTerminal = true) : next.claimed = runner.claimed := by
  have late := fits.end_cases ended
  cases act with
  | announce phase | leave phase => simp only [claimed, phase]
  | publish phase =>
      rename_i target further
      cases further <;> simp only [claimed, phase, Next.phase]
  | stop heeds =>
      rcases late with ⟨_, _, _, _, phase | phase⟩ | ⟨_, phase | phase⟩ <;>
        simp [Phase.heedsStop, phase] at heeds
  | _ phase =>
      rcases late with ⟨_, _, _, _, same | same⟩ | ⟨_, same | same⟩ <;>
        cases phase.symm.trans same

/-- A step of a runner sends the event of the move it announced, a line of its log, or nothing. -/
theorem events (act : runner.Act handle? scene step next after) :
    (next.logged = runner.logged ∧
      (after.events = scene.events ∨ ∃ line, after.events = scene.events ++ [.logged line])) ∨
    ∃ target further, runner.phase = .announcing target further ∧
      next = { runner with phase := .publishing target further } ∧
        after.events = scene.events ++ [.moved ⟨runner.name, runner.state, target⟩] := by
  cases act with
  | announce phase => exact Or.inr ⟨_, _, phase, rfl, rfl⟩
  | stop phase => exact Or.inl ⟨(logged_of_heedsStop phase).symm, Or.inl rfl⟩
  | fail phase =>
      have here : runner.state = runner.logged := by simp only [logged, phase]
      exact Or.inl ⟨here, Or.inr ⟨_, rfl⟩⟩
  | publish phase =>
      rename_i target further
      refine Or.inl ⟨?_, Or.inl rfl⟩
      cases further <;> simp [logged, phase, Next.phase]
  | restore phase | start phase | arrive phase | hear phase | miss phase | giveUp phase | skip phase
  | clear phase | pass phase | queue phase | enter phase | withdraw phase | launch phase
  | finish phase | obey phase | succeed phase | exhaust phase | retry phase | release phase
  | wake phase | leave phase =>
      have here : runner.state = runner.logged := by simp only [logged, phase]
      exact Or.inl ⟨here, Or.inl rfl⟩

/-- What has been sent is never taken back. -/
theorem events_prefix (act : runner.Act handle? scene step next after) :
    scene.events <+: after.events := by
  rcases act.events with ⟨_, same | ⟨line, more⟩⟩ | ⟨target, further, _, _, more⟩
  · exact same ▸ List.prefix_refl _
  · rw [more]
    exact List.prefix_append _ _
  · rw [more]
    exact List.prefix_append _ _

end Act

end Runner

/-! ## The aggregator -/

namespace Aggregator

variable {events : List Event} {closed complete : Bool} {aggregator next : Aggregator}

/-- The aggregator takes the next event while there is one, and only then goes on to its end. -/
theorem step?_cases (taken : aggregator.step? events closed complete = some next) :
    (∃ event, events[aggregator.taken]? = some event ∧ aggregator.phase ≠ .ended ∧
      next = aggregator.take event) ∨
    (events[aggregator.taken]? = none ∧ aggregator.phase = .draining ∧
      next = aggregator.conclude) ∨
    (events[aggregator.taken]? = none ∧ aggregator.phase = .serving ∧
      (closed || complete) = true ∧ next = { aggregator with phase := .draining }) := by
  unfold step? at taken
  split at taken
  next => cases taken
  next event here notEnded =>
    cases taken
    exact Or.inl ⟨event, here, notEnded, rfl⟩
  next phase here =>
    cases taken
    exact Or.inr (Or.inl ⟨here, phase, rfl⟩)
  next phase here =>
    split at taken
    next closing =>
      cases taken
      exact Or.inr (Or.inr ⟨here, phase, closing, rfl⟩)
    next => cases taken

@[simp]
theorem take_taken (aggregator : Aggregator) (event : Event) :
    (aggregator.take event).taken = aggregator.taken + 1 := by
  cases event <;> rfl

@[simp]
theorem take_phase (aggregator : Aggregator) (event : Event) :
    (aggregator.take event).phase = aggregator.phase := by
  cases event <;> rfl

@[simp]
theorem take_states (aggregator : Aggregator) (event : Event) :
    (aggregator.take event).states = History.follow aggregator.states event := by
  cases event <;> rfl

/-- What one step does to the published map. -/
theorem step?_states (taken : aggregator.step? events closed complete = some next) :
    (∃ event, events[aggregator.taken]? = some event ∧ next.taken = aggregator.taken + 1 ∧
      next.states = History.follow aggregator.states event) ∨
    (next.taken = aggregator.taken ∧ next.states = aggregator.states) := by
  rcases step?_cases taken with ⟨event, here, _, rfl⟩ | ⟨_, _, rfl⟩ | ⟨_, _, _, rfl⟩
  · exact Or.inl ⟨event, here, take_taken aggregator event, take_states aggregator event⟩
  · exact Or.inr ⟨rfl, rfl⟩
  · exact Or.inr ⟨rfl, rfl⟩

end Aggregator

/-! ## All records of a run -/

namespace Run

/-- The runners are those of the graph, and what the records of the run tell fits together. -/
structure Orderly (graph : Graph) (seeds : KeyMap Seed) (run : Run) : Prop where
  names : run.runners.map Runner.name = graph.names
  staffed : ∀ {name runner}, run.find? name = some runner →
    runner.task ∈ graph.tasks ∧ runner.seed = seedOf seeds name
  fits : ∀ {name runner}, run.find? name = some runner → runner.Fits
  logged : ∀ {name runner}, run.find? name = some runner →
    History.stateOf run.scene.events name = runner.logged
  sound : History.Sound graph.names run.scene.events
  taken : run.aggregator.taken ≤ run.scene.events.length
  mapped : run.aggregator.states = History.replay (StateMap.allIn graph.names .init)
    (run.scene.events.take run.aggregator.taken)

theorem names_put {run : Run} {runner : Runner} :
    (run.put runner).runners.map Runner.name = run.runners.map Runner.name := by
  rw [put, List.map_map]
  apply List.map_congr_left
  intro other _
  by_cases same : other.name = runner.name
  · simp [same]
  · simp [same]

/-- A step of a run sends at most one event. -/
theorem Change.sent {run next : Run} {step : Step} (change : run.Change step next) :
    next.scene.events = run.scene.events ∨
      ∃ event, next.scene.events = run.scene.events ++ [event] := by
  cases change with
  | act found act =>
      rcases act.events with ⟨_, same | ⟨line, more⟩⟩ | ⟨target, further, _, _, more⟩
      · exact Or.inl same
      · exact Or.inr ⟨_, more⟩
      · exact Or.inr ⟨_, more⟩
  | line => exact Or.inr ⟨_, rfl⟩
  | cancel | aggregate => exact Or.inl rfl
  | aside runners scene => exact Or.inl (congrArg Scene.events scene)

/-- What each move has to do with the events before it stays so after a step, if the moves that
runners announce have to do so with all events so far. -/
theorem Change.forall_moved {run next : Run} {step : Step} {P : List Event → Transition → Prop}
    (change : run.Change step next)
    (before : ∀ (position : Nat) (transition : Transition),
      run.scene.events[position]? = some (.moved transition) →
        P (run.scene.events.take position) transition)
    (fits : ∀ runner target further, run.find? runner.name = some runner →
      runner.phase = .announcing target further →
        P run.scene.events ⟨runner.name, runner.state, target⟩) :
    ∀ (position : Nat) (transition : Transition),
      next.scene.events[position]? = some (.moved transition) →
        P (next.scene.events.take position) transition := by
  cases change with
  | act found act =>
      rcases act.events with ⟨_, unchanged | ⟨line, more⟩⟩ | ⟨target, further, phase, _, more⟩
      · simp only [unchanged]
        exact before
      · simp only [more]
        exact History.forall_moved_concat before fun transition same => by cases same
      · simp only [more]
        apply History.forall_moved_concat before
        intro transition same
        cases same
        exact fits _ target further found phase
  | line => exact History.forall_moved_concat before fun transition same => by cases same
  | cancel | aggregate => exact before
  | aside runners scene =>
      rw [scene]
      exact before

theorem mem_of_find? {run : Run} {name : String} {runner : Runner}
    (found : run.find? name = some runner) : runner ∈ run.runners :=
  List.mem_of_find?_eq_some found

theorem find?_of_mem_names {run : Run} {name : String}
    (listed : name ∈ run.runners.map Runner.name) : ∃ runner, run.find? name = some runner := by
  obtain ⟨runner, member, same⟩ := List.mem_map.1 listed
  exact Option.isSome_iff_exists.1 (List.find?_isSome.2 ⟨runner, member, decide_eq_true same⟩)

theorem find?_of_mem {run : Run} {runner : Runner} (distinct : (run.runners.map Runner.name).Nodup)
    (member : runner ∈ run.runners) : run.find? runner.name = some runner := by
  obtain ⟨other, found⟩ := find?_of_mem_names (List.mem_map_of_mem member)
  rw [found, List.inj_on_of_nodup_map distinct (mem_of_find? found) member (name_of_find? found)]

namespace Orderly

variable {graph : Graph} {seeds : KeyMap Seed} {run next : Run} {step : Step}

theorem start {limit : Nat} {store : Store} {cancelled keeps saves : Bool}
    {slot : Option Snapshot} :
    Orderly graph seeds (start graph limit seeds store cancelled keeps saves slot) := by
  have ofTask : ∀ {name runner},
      (Run.start graph limit seeds store cancelled keeps saves slot).find? name = some runner →
        ∃ task ∈ graph.tasks, task.name = name ∧
          runner = Runner.ofTask task (seedOf seeds task.name) := by
    intro name runner found
    obtain ⟨task, member, same⟩ := List.mem_map.1 (mem_of_find? found)
    cases same
    exact ⟨task, member, name_of_find? found, rfl⟩
  refine ⟨?_, ?_, ?_, ?_, History.Sound.nil, Nat.le_refl 0, rfl⟩
  · rw [Run.start, List.map_map]
    rfl
  · intro name runner found
    obtain ⟨task, member, rfl, rfl⟩ := ofTask found
    exact ⟨member, rfl⟩
  · intro name runner found
    obtain ⟨task, _, _, rfl⟩ := ofTask found
    exact Runner.Fits.ofTask task _
  · intro name runner found
    obtain ⟨task, _, _, rfl⟩ := ofTask found
    rfl

theorem name_mem (orderly : Orderly graph seeds run) {name : String} {runner : Runner}
    (found : run.find? name = some runner) : name ∈ graph.names := by
  rw [← name_of_find? found]
  exact List.mem_map_of_mem (orderly.staffed found).1

private theorem act (orderly : Orderly graph seeds run) {before runner : Runner} {scene : Scene}
    (found : run.find? before.name = some before)
    (act : before.Act run.handle? run.scene step runner scene) :
    Orderly graph seeds { run.put runner with scene } := by
  have fits := orderly.fits found
  have told := orderly.logged found
  have longer := act.events_prefix
  have takenSame := History.take_of_isPrefix longer orderly.taken
  refine ⟨names_put.trans orderly.names, ?_, ?_, ?_, ?_,
    Nat.le_trans orderly.taken longer.length_le, ?_⟩
  · intro name other otherFound
    rcases found_act found act.name otherFound with ⟨rfl, rfl⟩ | ⟨_, earlier⟩
    · rw [act.task, act.seed]
      exact orderly.staffed found
    · exact orderly.staffed earlier
  · intro name other otherFound
    rcases found_act found act.name otherFound with ⟨_, rfl⟩ | ⟨_, earlier⟩
    · exact fits.act act
    · exact orderly.fits earlier
  · intro name other otherFound
    have here := found_act found act.name otherFound
    rcases act.events with ⟨same, unchanged | ⟨line, more⟩⟩ | ⟨target, further, _, rfl, more⟩
    · simp only [unchanged]
      rcases here with ⟨rfl, rfl⟩ | ⟨_, earlier⟩
      · rw [told, same]
      · exact orderly.logged earlier
    · simp only [more, History.stateOf_concat, History.stateAfter]
      rcases here with ⟨rfl, rfl⟩ | ⟨_, earlier⟩
      · rw [told, same]
      · exact orderly.logged earlier
    · simp only [more, History.stateOf_concat, History.stateAfter]
      rcases here with ⟨rfl, rfl⟩ | ⟨elsewhere, earlier⟩
      · rw [if_pos rfl]
        rfl
      · rw [if_neg (Ne.symm elsewhere)]
        exact orderly.logged earlier
  · rcases act.events with ⟨_, unchanged | ⟨line, more⟩⟩ | ⟨target, further, phase, _, more⟩
    · simp only [unchanged]
      exact orderly.sound
    · simp only [more]
      exact orderly.sound.concat fun transition same => by cases same
    · simp only [more]
      apply orderly.sound.concat
      intro transition same
      cases same
      simp only [Runner.Fits, phase] at fits
      refine ⟨orderly.name_mem found, ?_, fits.source_active⟩
      rw [told, Runner.logged, phase]
  · exact orderly.mapped.trans (congrArg (History.replay _) takenSame.symm)

private theorem aggregate (orderly : Orderly graph seeds run) {aggregator : Aggregator}
    (taken : run.aggregator.step? run.scene.events run.isQuiet run.complete = some aggregator) :
    Orderly graph seeds { run with aggregator } := by
  have mapped := orderly.mapped
  rcases Aggregator.step?_states taken with ⟨event, here, count, states⟩ | ⟨count, states⟩
  · refine ⟨orderly.names, orderly.staffed, orderly.fits, orderly.logged, orderly.sound, ?_, ?_⟩
    · rw [count]
      exact (List.getElem?_eq_some_iff.1 here).1
    · simp only [count, states, mapped, History.take_succ_of_getElem? here, History.replay_concat]
  · refine ⟨orderly.names, orderly.staffed, orderly.fits, orderly.logged, orderly.sound, ?_, ?_⟩
    · rw [count]
      exact orderly.taken
    · simp only [count, states, mapped]

/-- No step of a run brings its records out of order. -/
theorem change (orderly : Orderly graph seeds run) (change : run.Change step next) :
    Orderly graph seeds next := by
  cases change with
  | act found act => exact orderly.act found act
  | line found phase =>
      refine ⟨orderly.names, orderly.staffed, orderly.fits, ?_, ?_, ?_, ?_⟩
      · intro name runner otherFound
        simp only [Scene.send, History.stateOf_concat, History.stateAfter]
        exact orderly.logged otherFound
      · exact orderly.sound.concat fun transition same => by cases same
      · simp only [Scene.send, List.length_append]
        exact Nat.le_add_right_of_le orderly.taken
      · simp only [Scene.send, List.take_append_of_le_length orderly.taken]
        exact orderly.mapped
  | cancel =>
      exact ⟨orderly.names, orderly.staffed, orderly.fits, orderly.logged, orderly.sound,
        orderly.taken, orderly.mapped⟩
  | aggregate taken => exact orderly.aggregate taken
  | aside runners scene aggregator =>
      have look := find?_of_runners runners
      refine ⟨runners ▸ orderly.names, ?_, ?_, ?_, scene ▸ orderly.sound, ?_, ?_⟩
      · intro name runner found
        exact orderly.staffed (look ▸ found)
      · intro name runner found
        exact orderly.fits (look ▸ found)
      · intro name runner found
        rw [scene]
        exact orderly.logged (look ▸ found)
      · rw [scene, aggregator]
        exact orderly.taken
      · rw [scene, aggregator]
        exact orderly.mapped

/-- Every course of a run keeps its records in order. -/
theorem course {allowed : Run → Step → Prop} {first : Run} {steps : List Step}
    (course : Course allowed first steps run) (start : Orderly graph seeds first) :
    Orderly graph seeds run :=
  course.invariant start fun orderly _ change => orderly.change change

/-- What every step keeps true of a run in order is true of all runs of the graph. -/
theorem invariant {P : Run → Prop} {limit : Nat} {store : Store} {cancelled keeps saves : Bool}
    {slot : Option Snapshot} {steps : List Step}
    (taken : (Run.start graph limit seeds store cancelled keeps saves slot).steps? steps = some run)
    (first : P (Run.start graph limit seeds store cancelled keeps saves slot))
    (stays : ∀ {run next : Run} {step : Step}, Orderly graph seeds run → P run →
      run.Change step next → P next) : P run := by
  have both : Orderly graph seeds run ∧ P run := by
    refine steps?_invariant (P := fun run => Orderly graph seeds run ∧ P run) taken
      ⟨Orderly.start, first⟩ ?_
    rintro run next step ⟨orderly, here⟩ change
    exact ⟨orderly.change change, stays orderly here change⟩
  exact both.2

/-! ### What follows -/

theorem distinct (orderly : Orderly graph seeds run) (sound : graph.Sound) :
    (run.runners.map Runner.name).Nodup := orderly.names ▸ sound.distinct

theorem exists_runner (orderly : Orderly graph seeds run) {name : String}
    (listed : name ∈ graph.names) : ∃ runner, run.find? name = some runner :=
  find?_of_mem_names (orderly.names.symm ▸ listed)

theorem task_eq (orderly : Orderly graph seeds run) (sound : graph.Sound) {task : Task}
    (member : task ∈ graph.tasks) {runner : Runner} (found : run.find? task.name = some runner) :
    runner.task = task :=
  sound.task_unique (orderly.staffed found).1 member (name_of_find? found)

/-- The published map places every task where the events that were taken say it is. -/
theorem places (orderly : Orderly graph seeds run) :
    run.aggregator.states.Places graph.names
      (History.stateOf (run.scene.events.take run.aggregator.taken)) := by
  rw [orderly.mapped]
  exact (orderly.sound.take _).places

/-- What the published map says of a task that has ended is what its runner has come to. -/
theorem claimed_of_published (orderly : Orderly graph seeds run) {name : String} {runner : Runner}
    (found : run.find? name = some runner) {state : TaskState}
    (published : run.aggregator.states.stateOf? name = some state)
    (ended : state.isTerminal = true) : runner.claimed = state := by
  have listed := orderly.name_mem found
  have seen := (orderly.places.stateOf?_eq_some_iff listed).1 published
  have stays : History.stateOf run.scene.events name = state := by
    rw [← seen] at ended ⊢
    exact orderly.sound.stateOf_eq_of_take ended
  have told := orderly.logged found
  rw [stays] at told
  rw [(orderly.fits found).claimed_of_logged (told ▸ ended), told]

end Orderly

end Run

end JobGraph
