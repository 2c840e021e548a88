import JobGraph.Proofs.Run.Records
import JobGraph.Proofs.StoreWrites

/-!
# The ledger of a run

A run does not keep what happened to its store.  The ledger does, for whoever looks at a list of
steps: which attempts came back with a report, in which order their writes were merged, and which
snapshots were built, each with the number of events that its states reflect.

`Accounts` ties the ledger to the run: an attempt that came back either has been merged, or its
runner is about to merge it and has sent no event since.
-/

namespace JobGraph

/-- An attempt whose writes were merged into the store. -/
structure Merge where
  task : String
  attempt : Nat
  writes : List StoreWrite
  deriving DecidableEq, Repr

/-- An attempt that came back with a report, after so many events. -/
structure Return where
  merge : Merge
  sent : Nat
  deriving DecidableEq, Repr

/-- A snapshot whose states reflect so many events. -/
structure Built where
  snapshot : Snapshot
  seen : Nat
  deriving DecidableEq, Repr

/-- What happened in a run so far. -/
structure Ledger where
  returns : List Return
  merges : List Merge
  /-- How many events the states reflect that the saver looked at last. -/
  viewed : Nat
  snapshots : List Built
  deriving DecidableEq, Repr

namespace Ledger

def empty : Ledger := ⟨[], [], 0, []⟩

end Ledger

/-- The writes of merges, one after the other. -/
def Merge.allWrites (merges : List Merge) : List StoreWrite := merges.flatMap writes

theorem Merge.mem_allWrites {merges : List Merge} {merge : Merge} (member : merge ∈ merges)
    {write : StoreWrite} (listed : write ∈ merge.writes) : write ∈ allWrites merges :=
  List.mem_flatMap.2 ⟨merge, member, listed⟩

/-- What the next attempt of a runner to be merged has written. -/
def Runner.merge (runner : Runner) (report : Report) : Merge :=
  ⟨runner.name, runner.attempts, report.writes⟩

namespace Run

/-- The ledger after a step of a run. -/
def note (run : Run) (ledger : Ledger) : Step → Ledger
  | .ended name (.report report) =>
    match run.find? name with
    | some runner =>
      { ledger with
        returns := ledger.returns ++ [⟨runner.merge report, run.scene.events.length⟩] }
    | none => ledger
  | .runner name =>
    match run.find? name with
    | some runner =>
      match runner.phase with
      | .reported (.report report) =>
        { ledger with merges := ledger.merges ++ [runner.merge report] }
      | _ => ledger
    | none => ledger
  | .saver _ =>
    match run.saver with
    | .viewing => { ledger with viewed := run.aggregator.taken }
    | .viewed states =>
      { ledger with
        snapshots := ledger.snapshots ++ [⟨⟨states, run.scene.store⟩, ledger.viewed⟩] }
    | _ => ledger
  | .conductor _ =>
    if run.conductor = .finalizing ∧ run.keeps = true ∧
        FinalCheckpoint.ofStates run.aggregator.states = .written then
      { ledger with
        snapshots := ledger.snapshots ++
          [⟨⟨run.aggregator.states, run.scene.store⟩, run.aggregator.taken⟩] }
    else ledger
  | _ => ledger

/-- The ledger after steps of a run. -/
def ledgerAfter (run : Run) (ledger : Ledger) : List Step → Ledger
  | [] => ledger
  | step :: rest =>
    match run.step? step with
    | some next => next.ledgerAfter (run.note ledger step) rest
    | none => ledger

end Run

theorem Run.ledgerAfter_append {run middle : Run} {ledger : Ledger} {front : List Step}
    (taken : run.steps? front = some middle) (back : List Step) :
    run.ledgerAfter ledger (front ++ back) =
      middle.ledgerAfter (run.ledgerAfter ledger front) back := by
  induction front generalizing run ledger with
  | nil =>
      cases taken
      rfl
  | cons step rest inductionHypothesis =>
      obtain ⟨next, stepped, further⟩ := Option.bind_eq_some_iff.1 taken
      simp only [List.cons_append, ledgerAfter, stepped]
      exact inductionHypothesis further

/-- What every step keeps true of a run and its ledger is true of them after many steps. -/
theorem Run.ledgerAfter_invariant {P : Run → Ledger → Prop} {run last : Run} {ledger : Ledger}
    {steps : List Step} (taken : run.steps? steps = some last) (start : P run ledger)
    (stays : ∀ {run next : Run} {ledger : Ledger} {step : Step}, P run ledger →
      run.Change step next → P next (run.note ledger step)) :
    P last (run.ledgerAfter ledger steps) := by
  induction steps generalizing run ledger with
  | nil =>
      cases taken
      exact start
  | cons step rest inductionHypothesis =>
      obtain ⟨next, stepped, further⟩ := Option.bind_eq_some_iff.1 taken
      simp only [ledgerAfter, stepped]
      exact inductionHypothesis further (stays start (change_of_step? stepped))

/-- The task was moved since the attempt came back, and that is among the first `seen` events. -/
def Return.FollowedBefore (events : List Event) (seen : Nat) (attempt : Return) : Prop :=
  ∃ (position : Nat) (transition : Transition), attempt.sent ≤ position ∧ position < seen ∧
    events[position]? = some (Event.moved transition) ∧ transition.task = attempt.merge.task

namespace Return

variable {events later : List Event} {seen : Nat} {attempt : Return}

theorem FollowedBefore.of_isPrefix (followed : attempt.FollowedBefore later seen)
    (grows : events <+: later) (within : seen ≤ events.length) :
    attempt.FollowedBefore events seen := by
  obtain ⟨position, transition, first, below, there, same⟩ := followed
  obtain ⟨more, rfl⟩ := grows
  rw [List.getElem?_append_left (Nat.lt_of_lt_of_le below within)] at there
  exact ⟨position, transition, first, below, there, same⟩

theorem FollowedBefore.mono (followed : attempt.FollowedBefore events seen) {length : Nat}
    (more : seen ≤ length) : attempt.FollowedBefore events length := by
  obtain ⟨position, transition, first, below, there, same⟩ := followed
  exact ⟨position, transition, first, Nat.lt_of_lt_of_le below more, there, same⟩

theorem not_followedBefore (late : seen ≤ attempt.sent) : ¬attempt.FollowedBefore events seen := by
  rintro ⟨position, transition, first, below, _, _⟩
  omega

/-- One more event does not follow an attempt unless it moves its task. -/
theorem not_followedBefore_concat
    (notFollowed : ¬attempt.FollowedBefore events events.length) {event : Event}
    (elsewhere : ∀ transition, event = .moved transition →
      transition.task ≠ attempt.merge.task) :
    ¬attempt.FollowedBefore (events ++ [event]) (events ++ [event]).length := by
  rintro ⟨position, transition, first, _, there, task⟩
  rcases History.getElem?_concat_cases there with ⟨inside, earlier⟩ | ⟨_, same⟩
  · exact notFollowed ⟨position, transition, first, inside, earlier, task⟩
  · exact elsewhere transition same.symm task

end Return

namespace Run

variable {graph : Graph} {seeds : KeyMap Seed} {run next : Run} {ledger : Ledger} {step : Step}

/-- The attempt came back and is about to be merged; its task has not been moved since. -/
def IsOpen (run : Run) (attempt : Return) : Prop :=
  ∃ runner report, run.find? attempt.merge.task = some runner ∧
    runner.phase = .reported (.report report) ∧ attempt.merge = runner.merge report ∧
      ¬attempt.FollowedBefore run.scene.events run.scene.events.length

/-- What a step of a runner adds to the ledger: an attempt that came back, one that is merged, or
nothing. -/
inductive Noted (run : Run) (before : Runner) (ledger : Ledger) : Runner → Scene → Ledger → Prop
  | returned {report : Report} (phase : before.phase = .attempting) :
      Noted run before ledger { before with phase := .reported (.report report) } run.scene
        { ledger with
          returns := ledger.returns ++ [⟨before.merge report, run.scene.events.length⟩] }
  | merged {runner : Runner} {scene : Scene} {report : Report}
      (phase : before.phase = .reported (.report report)) (events : scene.events = run.scene.events)
      (store : scene.store = run.scene.store.merge report.writes) :
      Noted run before ledger runner scene
        { ledger with merges := ledger.merges ++ [before.merge report] }
  | nothing {runner : Runner} {scene : Scene} (store : scene.store = run.scene.store)
      (phase : ∀ report, before.phase ≠ .reported (.report report)) :
      Noted run before ledger runner scene ledger

theorem note_of_turn {before : Runner} (found : run.find? before.name = some before)
    (turn : step.IsTurnOf before.name)
    (phase : ∀ report, before.phase ≠ .reported (.report report)) :
    run.note ledger step = ledger := by
  cases step with
  | runner name =>
      cases turn
      simp only [note, found]
  | overtaken | rested | cancel | aggregator | tick => rfl
  | line | ended | saver | conductor => exact absurd turn id

/-- Who only looks on neither brings an attempt back nor merges one. -/
theorem note_of_aside (run : Run) (ledger : Ledger) (aside : step.IsAside) :
    (run.note ledger step).merges = ledger.merges ∧
      (run.note ledger step).returns = ledger.returns := by
  cases step with
  | tick => exact ⟨rfl, rfl⟩
  | saver accepted =>
      simp only [note]
      split <;> exact ⟨rfl, rfl⟩
  | conductor accepted =>
      simp only [note]
      split <;> exact ⟨rfl, rfl⟩
  | runner | overtaken | line | ended | rested | cancel | aggregator => exact absurd aside id

/-- What came back and what was merged is never struck out. -/
theorem prefix_note (run : Run) (ledger : Ledger) (step : Step) :
    ledger.returns <+: (run.note ledger step).returns ∧
      ledger.merges <+: (run.note ledger step).merges := by
  have same : ledger.returns <+: ledger.returns ∧ ledger.merges <+: ledger.merges :=
    ⟨List.prefix_refl _, List.prefix_refl _⟩
  cases step with
  | ended name result =>
      cases result with
      | report report =>
          simp only [note]
          split
          · exact ⟨List.prefix_append _ _, List.prefix_refl _⟩
          · exact same
      | error => exact same
  | runner name =>
      simp only [note]
      split
      · split
        · exact ⟨List.prefix_refl _, List.prefix_append _ _⟩
        · exact same
      · exact same
  | saver accepted =>
      simp only [note]
      split <;> exact same
  | conductor accepted =>
      simp only [note]
      split <;> exact same
  | overtaken | line | rested | cancel | aggregator | tick => exact same

theorem noted_of_act (ledger : Ledger) {before runner : Runner} {scene : Scene}
    (found : run.find? before.name = some before)
    (act : before.Act run.handle? run.scene step runner scene) :
    Noted run before ledger runner scene (run.note ledger step) := by
  have quiet : step.IsTurnOf before.name → scene.store = run.scene.store →
      (∀ report, before.phase ≠ .reported (.report report)) →
        Noted run before ledger runner scene (run.note ledger step) := by
    intro turn store phase
    rw [note_of_turn found turn phase]
    exact .nothing store phase
  cases act with
  | finish phase =>
      rename_i result
      cases result with
      | report report =>
          simp only [note, found]
          exact .returned phase
      | error error => exact .nothing rfl fun report same => by cases phase.symm.trans same
  | obey phase | succeed phase | exhaust phase | retry phase =>
      simp only [note, found, phase]
      exact .merged phase rfl rfl
  | stop phase seed stopped turn =>
      refine quiet turn rfl ?_
      intro report same
      simp [Phase.heedsStop, same] at phase
  | hear phase known settled turn =>
      exact quiet turn rfl fun report same => by cases phase.symm.trans same
  | miss phase unknown turn =>
      exact quiet turn rfl fun report same => by cases phase.symm.trans same
  | pass phase granted turn =>
      exact quiet turn rfl fun report same => by cases phase.symm.trans same
  | queue phase denied turn =>
      exact quiet turn rfl fun report same => by cases phase.symm.trans same
  | enter phase granted turn =>
      exact quiet turn rfl fun report same => by cases phase.symm.trans same
  | restore phase | start phase | arrive phase | giveUp phase | skip phase | clear phase
  | withdraw phase | launch phase | fail phase | announce phase | publish phase | release phase
  | wake phase | leave phase =>
      exact quiet rfl rfl fun report same => by cases phase.symm.trans same

/-- The ledger tells how the store came about, and no attempt that came back is lost. -/
structure Accounts (store : Store) (run : Run) (ledger : Ledger) : Prop where
  stored : store.Becomes (Merge.allWrites ledger.merges) run.scene.store
  running : ∀ attempt ∈ ledger.returns, attempt.sent ≤ run.scene.events.length ∧
    History.stateOf (run.scene.events.take attempt.sent) attempt.merge.task = .running
  merged : ∀ attempt ∈ ledger.returns, attempt.merge ∈ ledger.merges ∨ run.IsOpen attempt

namespace Accounts

variable {store : Store}

theorem start {limit : Nat} {cancelled keeps saves : Bool} {slot : Option Snapshot} :
    Accounts store (start graph limit seeds store cancelled keeps saves slot) .empty := by
  refine ⟨fun _ => rfl, ?_, ?_⟩
  · intro attempt member
    cases member
  · intro attempt member
    cases member

/-- An attempt whose task has been moved since it came back is merged. -/
theorem merged_of_followed (accounts : Accounts store run ledger) {attempt : Return}
    (member : attempt ∈ ledger.returns) {seen : Nat} (within : seen ≤ run.scene.events.length)
    (followed : attempt.FollowedBefore run.scene.events seen) : attempt.merge ∈ ledger.merges := by
  rcases accounts.merged attempt member with merged | ⟨runner, report, _, _, _, notFollowed⟩
  · exact merged
  · exact absurd (followed.mono within) notFollowed

private theorem isOpen_elsewhere {before runner : Runner} {scene : Scene}
    (found : run.find? before.name = some before)
    (act : before.Act run.handle? run.scene step runner scene) {attempt : Return}
    (isOpen : run.IsOpen attempt) (elsewhere : attempt.merge.task ≠ before.name) :
    ({ run.put runner with scene } : Run).IsOpen attempt := by
  obtain ⟨other, report, otherFound, phase, same, notFollowed⟩ := isOpen
  refine ⟨other, report, ?_, phase, same, ?_⟩
  · rw [find?_act found act.name scene, if_neg elsewhere]
    exact otherFound
  -- What the step itself has sent is about another task.
  · rcases act.events with ⟨_, unchanged | ⟨line, more⟩⟩ | ⟨target, further, _, _, more⟩
    · simp only [unchanged]
      exact notFollowed
    · simp only [more]
      exact Return.not_followedBefore_concat notFollowed fun transition same => by cases same
    · simp only [more]
      apply Return.not_followedBefore_concat notFollowed
      intro transition same
      cases same
      exact Ne.symm elsewhere

/-- While an attempt was away, its task was running, and that is not undone by later events. -/
private theorem running_of_isPrefix (accounts : Accounts store run ledger) {later : List Event}
    (longer : run.scene.events <+: later) {attempt : Return} (member : attempt ∈ ledger.returns) :
    attempt.sent ≤ later.length ∧
      History.stateOf (later.take attempt.sent) attempt.merge.task = .running := by
  obtain ⟨within, same⟩ := accounts.running attempt member
  refine ⟨Nat.le_trans within longer.length_le, ?_⟩
  rw [History.take_of_isPrefix longer within]
  exact same

private theorem act {before runner : Runner} {scene : Scene} (accounts : Accounts store run ledger)
    (orderly : Orderly graph seeds run) (found : run.find? before.name = some before)
    (act : before.Act run.handle? run.scene step runner scene) :
    Accounts store { run.put runner with scene } (run.note ledger step) := by
  have running : ∀ attempt ∈ ledger.returns, attempt.sent ≤ scene.events.length ∧
      History.stateOf (scene.events.take attempt.sent) attempt.merge.task = .running :=
    fun attempt member => accounts.running_of_isPrefix act.events_prefix member
  -- An open attempt of the runner itself is the one that its phase tells.
  have own : ∀ attempt ∈ ledger.returns, run.IsOpen attempt → attempt.merge.task = before.name →
      ∃ report, before.phase = .reported (.report report) ∧
        attempt.merge = before.merge report := by
    rintro attempt _ ⟨other, report, otherFound, phase, same, _⟩ here
    rw [here] at otherFound
    cases found.symm.trans otherFound
    exact ⟨report, phase, same⟩
  have stays : ∀ attempt ∈ ledger.returns, run.IsOpen attempt →
      ({ run.put runner with scene } : Run).IsOpen attempt ∨
        ∃ report, before.phase = .reported (.report report) ∧
          attempt.merge = before.merge report := by
    intro attempt member isOpen
    by_cases here : attempt.merge.task = before.name
    · exact Or.inr (own attempt member isOpen here)
    · exact Or.inl (isOpen_elsewhere found act isOpen here)
  have noted := noted_of_act ledger found act
  generalize run.note ledger step = after at noted
  cases noted with
  | returned phase =>
      rename_i report
      refine ⟨accounts.stored, ?_, ?_⟩
      · intro attempt member
        rcases List.mem_append.1 member with earlier | isNew
        · exact running attempt earlier
        · cases List.mem_singleton.1 isNew
          have fits := orderly.fits found
          simp only [Runner.Fits, phase] at fits
          refine ⟨Nat.le_refl _, ?_⟩
          change History.stateOf (List.take _ _) before.name = .running
          rw [List.take_length, orderly.logged found, Runner.logged, phase]
          exact fits.2.1
      · intro attempt member
        rcases List.mem_append.1 member with earlier | isNew
        · rcases accounts.merged attempt earlier with merged | isOpen
          · exact Or.inl merged
          · rcases stays attempt earlier isOpen with still | ⟨other, reported, _⟩
            · exact Or.inr still
            · cases phase.symm.trans reported
        · cases List.mem_singleton.1 isNew
          refine Or.inr ⟨{ before with phase := .reported (.report report) }, report, ?_, rfl, rfl,
            Return.not_followedBefore (Nat.le_refl _)⟩
          rw [find?_act found act.name]
          exact if_pos rfl
  | merged phase events added =>
      rename_i report
      refine ⟨?_, running, ?_⟩
      · have writes : Merge.allWrites (ledger.merges ++ [before.merge report]) =
            Merge.allWrites ledger.merges ++ report.writes := by
          rw [Merge.allWrites, List.flatMap_append, List.flatMap_singleton]
          rfl
        rw [writes]
        exact added ▸ accounts.stored.merge report.writes
      · intro attempt member
        rcases accounts.merged attempt member with merged | isOpen
        · exact Or.inl (List.mem_append_left _ merged)
        · rcases stays attempt member isOpen with still | ⟨other, reported, same⟩
          · exact Or.inr still
          · cases phase.symm.trans reported
            exact Or.inl (List.mem_append_right _ (List.mem_singleton.2 same))
  | nothing kept phase =>
      refine ⟨kept ▸ accounts.stored, running, ?_⟩
      intro attempt member
      rcases accounts.merged attempt member with merged | isOpen
      · exact Or.inl merged
      · rcases stays attempt member isOpen with still | ⟨other, reported, _⟩
        · exact Or.inr still
        · exact absurd reported (phase other)

private theorem of_events (accounts : Accounts store run ledger)
    (runners : next.runners = run.runners)
    (kept : next.scene.store = run.scene.store)
    (events : next.scene.events = run.scene.events ∨
      ∃ line, next.scene.events = run.scene.events ++ [.logged line]) :
    Accounts store next ledger := by
  have look := find?_of_runners runners
  have longer : run.scene.events <+: next.scene.events := by
    rcases events with same | ⟨line, more⟩
    · exact same ▸ List.prefix_refl _
    · rw [more]
      exact List.prefix_append _ _
  refine ⟨kept ▸ accounts.stored,
    fun attempt member => accounts.running_of_isPrefix longer member, ?_⟩
  intro attempt member
  rcases accounts.merged attempt member with merged | ⟨runner, report, found, phase, same, open_⟩
  · exact Or.inl merged
  · refine Or.inr ⟨runner, report, look.symm ▸ found, phase, same, ?_⟩
    rcases events with unchanged | ⟨line, more⟩
    · rw [unchanged]
      exact open_
    · rw [more]
      exact Return.not_followedBefore_concat open_ fun transition same => by cases same

theorem change (accounts : Accounts store run ledger) (orderly : Orderly graph seeds run)
    (change : run.Change step next) : Accounts store next (run.note ledger step) := by
  cases change with
  | act found act => exact accounts.act orderly found act
  | line => exact accounts.of_events rfl rfl (Or.inr ⟨_, rfl⟩)
  | cancel | aggregate => exact accounts.of_events rfl rfl (Or.inl rfl)
  | aside runners scene aggregator aside =>
      have same := note_of_aside run ledger aside
      have after := accounts.of_events runners (congrArg Scene.store scene)
        (Or.inl (congrArg Scene.events scene))
      exact ⟨same.1 ▸ after.stored, same.2 ▸ after.running,
        by rw [same.1, same.2]; exact after.merged⟩

end Accounts

end Run

end JobGraph
