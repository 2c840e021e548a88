import JobGraph.Proofs.Run.Diary
import JobGraph.Proofs.Run.Verdicts

/-!
# Retries

A task whose dependencies let it run has a script: it becomes pending, is attempted again after each
attempt that failed and a pause, up to the attempt that decides, and ends as that one did.
`Task.script` writes it down as marks of a diary, and the diary of the task in every run is that
script, whatever the other tasks do and whenever permits come free.

What the diary says so far can be told from where the runner stands, so one function of the runner
serves as the invariant (`Runner.record`).
-/

namespace JobGraph

/-! ## The script of a task -/

namespace Mark

/-- What is seen of an attempt until it comes back. -/
def attempt (number : Nat) : List Mark := [.granted, .moved .pending .running, .launched number]

/-- What is seen after an attempt that failed and is not the last one. -/
def retry (backoff : Duration) : List Mark :=
  [.moved .running .pending, .released, .paused backoff, .rested]

/-- What is seen until so many attempts have failed and the pause after the last of them is over. -/
def opening (backoff : Duration) : Nat → List Mark
  | 0 => [.moved .init .pending]
  | failed + 1 => opening backoff failed ++ attempt (failed + 1) ++ retry backoff

/-- The line that a runner puts out when an attempt could not be made. -/
def complaint (kind : AttemptKind) : List Mark := if kind = .error then [.logged .critical] else []

end Mark

/-- All that is seen of a task that is decided by the attempt of a number. -/
def Task.script (task : Task) (kind : Nat → AttemptKind) (number : Nat) : List Mark :=
  Mark.opening task.backoff (number - 1) ++ Mark.attempt number ++ Mark.complaint (kind number) ++
    [.moved .running (kind number).ending, .released]

/-! ## What a script says -/

namespace Mark

def move? : Mark → Option (TaskState × TaskState)
  | .moved source target => some (source, target)
  | _ => none

def pause? : Mark → Option Duration
  | .paused length => some length
  | _ => none

def line? : Mark → Option Severity
  | .logged severity => some severity
  | _ => none

theorem filterMap_opening {α : Type} {read : Mark → Option α} {backoff : Duration} {block : List α}
    (alike : ∀ number, (attempt number ++ retry backoff).filterMap read = block) (failed : Nat) :
    (opening backoff failed).filterMap read =
      [moved .init .pending].filterMap read ++ (List.replicate failed block).flatten := by
  induction failed with
  | zero => simp [opening]
  | succ failed inductionHypothesis =>
      rw [opening, List.append_assoc, List.filterMap_append, inductionHypothesis, alike,
        List.replicate_succ', List.flatten_append, List.flatten_singleton, List.append_assoc]

/-- A pause begins only when the task has just become pending again and given its permit back, and
nothing else is seen of the task until the pause is over. -/
def RestsApart (marks : List Mark) : Prop :=
  ∀ front length back, marks = front ++ .paused length :: back →
    (∃ before, front = before ++ [.moved .running .pending, .released]) ∧
      ∃ after, back = .rested :: after

theorem restsApart_of_restless {marks : List Mark} (restless : marks.filterMap pause? = []) :
    RestsApart marks := by
  intro front length back split
  rw [split, List.filterMap_append] at restless
  simp [pause?] at restless

theorem RestsApart.append {first second : List Mark} (former : RestsApart first)
    (latter : RestsApart second) : RestsApart (first ++ second) := by
  intro front length back split
  rcases List.append_eq_append_iff.1 split with ⟨between, rfl, inside⟩ | ⟨between, inside, rest⟩
  · obtain ⟨⟨before, rfl⟩, later⟩ := latter between length back inside
    exact ⟨⟨first ++ before, (List.append_assoc _ _ _).symm⟩, later⟩
  · cases between with
    | nil =>
        obtain ⟨⟨before, nothing⟩, _⟩ := latter [] length back rest.symm
        simp at nothing
    | cons mark between =>
        cases rest
        obtain ⟨earlier, after, rfl⟩ := former front length between inside
        exact ⟨earlier, after ++ second, rfl⟩

theorem restsApart_retry (backoff : Duration) : RestsApart (retry backoff) := by
  intro front length back split
  rcases front with _ | ⟨first, _ | ⟨second, _ | ⟨third, _ | ⟨fourth, front⟩⟩⟩⟩ <;>
    simp [retry] at split
  obtain ⟨rfl, rfl, rfl, rfl⟩ := split
  exact ⟨⟨[], rfl⟩, [], rfl⟩

theorem restsApart_opening (backoff : Duration) (failed : Nat) :
    RestsApart (opening backoff failed) := by
  induction failed with
  | zero => exact restsApart_of_restless rfl
  | succ failed inductionHypothesis =>
      exact (inductionHypothesis.append (restsApart_of_restless rfl)).append
        (restsApart_retry backoff)

end Mark

namespace Task

variable (task : Task) (kind : Nat → AttemptKind) (number : Nat)

theorem filterMap_script {α : Type} {read : Mark → Option α} {block : List α}
    (alike : ∀ number, (Mark.attempt number ++ Mark.retry task.backoff).filterMap read = block) :
    (task.script kind number).filterMap read =
      [Mark.moved .init .pending].filterMap read ++ (List.replicate (number - 1) block).flatten ++
        (Mark.attempt number).filterMap read ++ (Mark.complaint (kind number)).filterMap read ++
          [Mark.moved .running (kind number).ending, Mark.released].filterMap read := by
  simp only [script, List.filterMap_append, Mark.filterMap_opening alike]

theorem moves_script : (task.script kind number).filterMap Mark.move? =
    ((TaskState.init, TaskState.pending) ::
      (List.replicate (number - 1)
        [(TaskState.pending, TaskState.running), (.running, .pending)]).flatten) ++
      [(.pending, .running), (.running, (kind number).ending)] := by
  have alike : ∀ number, (Mark.attempt number ++ Mark.retry task.backoff).filterMap Mark.move? =
      [(.pending, .running), (.running, .pending)] := fun _ => rfl
  rw [task.filterMap_script kind number alike, Mark.complaint]
  split <;> simp [Mark.attempt, Mark.move?, List.filterMap_cons]

theorem pauses_script : (task.script kind number).filterMap Mark.pause? =
    List.replicate (number - 1) task.backoff := by
  have alike : ∀ number, (Mark.attempt number ++ Mark.retry task.backoff).filterMap Mark.pause? =
      [task.backoff] := fun _ => rfl
  rw [task.filterMap_script kind number alike, Mark.complaint]
  split <;> simp [Mark.attempt, Mark.pause?, List.filterMap_cons]

theorem lines_script : (task.script kind number).filterMap Mark.line? =
    if kind number = .error then [.critical] else [] := by
  have alike : ∀ number, (Mark.attempt number ++ Mark.retry task.backoff).filterMap Mark.line? =
      [] := fun _ => rfl
  rw [task.filterMap_script kind number alike, Mark.complaint]
  split <;> simp [Mark.attempt, Mark.line?, List.filterMap_cons]

theorem restsApart_script : Mark.RestsApart (task.script kind number) := by
  have silent : (Mark.complaint (kind number)).filterMap Mark.pause? = [] := by
    unfold Mark.complaint
    split <;> rfl
  have opening := Mark.restsApart_opening task.backoff (number - 1)
  exact ((opening.append (Mark.restsApart_of_restless rfl)).append
    (Mark.restsApart_of_restless silent)).append (Mark.restsApart_of_restless rfl)

end Task

/-! ## What is seen so far -/

namespace Runner

/-- What is seen of a task up to the report of its last attempt. -/
def tries (runner : Runner) : List Mark :=
  Mark.opening runner.task.backoff (runner.attempts - 1) ++ Mark.attempt runner.attempts

/-- What is seen of a task up to a move, told by what comes after the move. -/
def marksBefore (kind : Nat → AttemptKind) (runner : Runner) : Next → List Mark
  | .wait => []
  | .launch => Mark.opening runner.task.backoff (runner.attempts - 1) ++ [.granted]
  | .pause => runner.tries
  | .leave => runner.tries ++ Mark.complaint (kind runner.attempts)

/-- What has been seen of a task that takes part in the run, by where its runner stands and whether
it has been given a permit. -/
def record (kind : Nat → AttemptKind) (holds : Bool) (runner : Runner) : List Mark :=
  let backoff := runner.task.backoff
  match runner.phase with
  | .ready => []
  | .announcing _ next => runner.marksBefore kind next
  | .publishing target next => runner.marksBefore kind next ++ [.moved runner.state target]
  | .arrived | .waiting _ _ | .asking => Mark.opening backoff runner.attempts
  | .queued => Mark.opening backoff runner.attempts ++ if holds then [.granted] else []
  | .launching => runner.marksBefore kind .launch ++ [.moved .pending .running]
  | .attempting | .reported _ => runner.tries
  | .pausing => runner.tries ++ [.moved .running .pending]
  | .resting _ => runner.tries ++ [.moved .running .pending, .released, .paused backoff]
  | .leaving => runner.marksBefore kind .leave ++ [.moved .running runner.state]
  | .gone => runner.marksBefore kind .leave ++ [.moved .running runner.state, .released]

variable {kind : Nat → AttemptKind} {runner next : Runner} {handle? : String → Option Handle}
  {scene after : Scene} {step : Step} {held : Bool}

/-- A runner that is about to give a permit back holds one. -/
theorem holding_record (phase : runner.phase = .pausing ∨ runner.phase = .leaving) :
    Mark.holding (runner.record kind held) = true := by
  have tried : ∀ later : List Mark, Mark.holding (runner.tries ++ later) =
      later.foldl Mark.heldAfter true := by
    intro later
    rw [Mark.holding, List.foldl_append, tries, List.foldl_append]
    rfl
  rcases phase with phase | phase
  · simp only [record, phase, tried]
    rfl
  · simp only [record, phase, marksBefore, List.append_assoc, tried, Mark.complaint]
    split <;> rfl

/-- A move is seen when it is told; to publish it shows nothing. -/
theorem record_publish {target : TaskState} {further : Next} (may : runner.MayMove target further)
    (phase : runner.phase = .publishing target further) (fresh : runner.IsFresh)
    (weighed : runner.Weighed kind) (attempted : target ≠ .defaulted) :
    ({ runner with state := target, phase := further.phase } : Runner).record kind held =
      runner.record kind held := by
  -- Only a run that is stopped ends a task that does not run.
  have leaving : further = .leave → runner.state = .running := by
    intro leaves
    have before := weighed fresh
    simp only [phase] at before
    exact (before leaves).2.resolve_left attempted
  cases may with
  | restore seed => exact absurd ⟨_, seed⟩ fresh.not_restored
  | skip seed => exact absurd seed fresh.not_skipped
  | giveUp => exact absurd rfl attempted
  | start _ here attempts =>
      simp [record, phase, Next.phase, marksBefore, here, attempts, Mark.opening]
  | enter _ here | retry _ here | succeed _ here | fail _ here =>
      simp [record, phase, Next.phase, marksBefore, tries, here]
  | abort =>
      simp [record, phase, Next.phase, marksBefore, tries, leaving rfl]

/-- What a runner does is seen, and nothing else is. -/
theorem record_act (act : runner.Act handle? scene step next after) (fits : runner.Fits)
    (weighed : runner.Weighed kind) (tried : runner.Tried kind (scene.cancelled = true))
    (going : scene.cancelled = false) (fresh : runner.IsFresh)
    (idle : runner.phase.mayHold = false → scene.gate.holds runner.name = false)
    (returns : runner.phase = .pausing ∨ runner.phase = .leaving →
      scene.gate.holds runner.name = true ∧
        (scene.gate.release runner.name).holds runner.name = false)
    (attempted : next.claimed ≠ .defaulted) :
    next.record kind (after.gate.holds runner.name) =
      runner.record kind (scene.gate.holds runner.name) ++
        (Mark.permits runner.name scene.gate after.gate ++ Mark.sent runner.name step scene after ++
          Mark.calls runner.name scene after ++ Mark.pauses runner next) := by
  -- Most acts neither send nor launch anything.
  have quiet : ∀ later : Scene, later.events = scene.events → later.launches = scene.launches →
      Mark.sent runner.name step scene later ++ Mark.calls runner.name scene later = [] := by
    intro later events launches
    rw [Mark.sent_of_same events, Mark.calls_of_same launches, List.append_nil]
  cases act with
  | restore phase seed => exact absurd ⟨_, seed⟩ fresh.not_restored
  | skip phase seed => exact absurd seed fresh.not_skipped
  | giveUp => exact absurd rfl attempted
  | stop _ _ stopped | withdraw _ stopped => cases going.symm.trans stopped
  | start phase | arrive phase | hear phase | miss phase | clear phase | finish phase
  | retry phase =>
      simp [record, phase, quiet, Mark.permits, Runner.announce, marksBefore, Mark.pauses, tries]
  | pass phase granted =>
      have free := idle (by rw [phase]; rfl)
      simp [record, phase, quiet, Mark.permits, free, granted, enterAttempt, Runner.announce,
        marksBefore, Mark.pauses]
  | queue phase denied =>
      have free := idle (by rw [phase]; rfl)
      simp [record, phase, quiet, Mark.permits, free, denied, Mark.pauses]
  | enter phase granted =>
      simp [record, phase, quiet, Mark.permits, granted, enterAttempt, Runner.announce,
        marksBefore, Mark.pauses]
  | launch phase =>
      simp [record, phase, Mark.sent_of_same, Mark.permits, Mark.calls, Mark.pauses, marksBefore,
        tries, Mark.attempt, request, name]
  | obey phase aborted | succeed phase aborted _ | exhaust phase aborted _ _ =>
      have same := (tried.reported going phase).2
      have silent : Mark.complaint (kind runner.attempts) = [] := by
        rw [← same]
        simp [AttemptResult.kind, Mark.complaint, *]
      simp [record, phase, quiet, Mark.permits, Mark.pauses, marksBefore, tries, Runner.abort,
        Runner.announce, silent]
  | fail phase =>
      have same := (tried.reported going phase).2
      have loud : Mark.complaint (kind runner.attempts) = [.logged .critical] := by
        rw [← same]
        rfl
      simp [record, phase, Mark.permits, Mark.pauses, marksBefore, tries, Runner.announce, loud,
        Mark.sent, Mark.ofEvent, Mark.calls, Scene.send]
  | announce phase =>
      rename_i target further
      have before : ({ runner with phase := .publishing target further } : Runner).marksBefore kind
          further = runner.marksBefore kind further := by
        cases further <;> rfl
      simp [record, phase, before, Mark.permits, Mark.pauses, Mark.sent, Mark.ofEvent, Mark.calls,
        Scene.send]
  | publish phase =>
      rename_i target further
      simp only [Fits, phase] at fits
      have leaves : target ≠ .defaulted := by
        cases further <;> exact attempted
      rw [record_publish fits phase fresh weighed leaves, Mark.permits, Mark.switch_self,
        List.nil_append, quiet _ rfl rfl, Mark.pauses, Next.pause?_phase, phase]
      simp
  | release phase =>
      obtain ⟨before, after⟩ := returns (Or.inl phase)
      simp [record, phase, quiet, Mark.permits, Mark.pauses, before, after, tries]
  | wake phase =>
      -- A pause ends the attempt before it, so there was one.
      have some := weighed fresh
      simp only [phase] at some
      obtain ⟨failed, count⟩ := Nat.exists_eq_succ_of_ne_zero (Nat.ne_of_gt some)
      simp [record, phase, quiet, Mark.permits, Mark.pauses, tries, count, Mark.opening, Mark.retry]
  | leave phase =>
      obtain ⟨before, after⟩ := returns (Or.inr phase)
      simp [record, phase, quiet, Mark.permits, Mark.pauses, before, after, marksBefore, tries]

/-- What others do can only bring a permit, and only to a runner that waits for one. -/
theorem record_elsewhere {before after : Gate}
    (kept : before.holds runner.name = true → after.holds runner.name = true)
    (still : runner.phase ≠ .queued → after.holds runner.name = before.holds runner.name) :
    runner.record kind (after.holds runner.name) =
      runner.record kind (before.holds runner.name) ++ Mark.permits runner.name before after := by
  by_cases queued : runner.phase = .queued
  · cases first : before.holds runner.name with
    | true => simp [Mark.permits, first, kept first]
    | false =>
        cases second : after.holds runner.name <;>
          simp [record, queued, Mark.permits, first, second]
  · rw [still queued, Mark.permits, still queued, Mark.switch_self, List.append_nil]

end Runner

/-! ## All runners -/

namespace Run

variable {graph : Graph} {seeds : KeyMap Seed} {kinds : String → Nat → AttemptKind}
  {diary : String → List Mark} {run next : Run} {step : Step}

/-- The diary of every task that takes part in the run, and is not given up, is as the runner of the
task stands. -/
def Chronicled (kinds : String → Nat → AttemptKind) (diary : String → List Mark) (run : Run) :
    Prop :=
  ∀ name runner, run.find? name = some runner → runner.IsFresh → runner.claimed ≠ .defaulted →
    diary name = runner.record (kinds name) (run.scene.gate.holds name)

namespace Chronicled

theorem start {limit : Nat} {store : Store} {cancelled keeps saves : Bool}
    {slot : Option Snapshot} :
    Chronicled kinds (fun _ => []) (start graph limit seeds store cancelled keeps saves slot) := by
  intro name runner found
  obtain ⟨task, _, same⟩ := List.mem_map.1 (mem_of_find? found)
  cases same
  exact fun _ _ => rfl

theorem act {before runner : Runner} {scene : Scene} (chronicled : Chronicled kinds diary run)
    (decided : Decided graph seeds kinds run)
    (held : ∀ name, Mark.holding (diary name) = run.scene.gate.holds name)
    (found : run.find? before.name = some before)
    (act : before.Act run.handle? run.scene step runner scene) (fresh : runner.IsFresh)
    (going : runner.claimed ≠ .defaulted) :
    diary before.name ++ run.marks before.name step { run.put runner with scene } =
      runner.record (kinds before.name) (scene.gate.holds before.name) := by
  have permitted := decided.permitted
  have fits := decided.orderly.fits found
  have wasFresh : before.IsFresh := by
    rw [Runner.IsFresh, ← act.seed]
    exact fresh
  -- A runner that had given its task up would still have.
  have wasGoing : before.claimed ≠ .defaulted := by
    intro claimed
    have stays := act.claimed_of_ended fits (by rw [claimed]; rfl)
    exact going (stays.trans claimed)
  have sofar := chronicled _ before found wasFresh wasGoing
  have idle : before.phase.mayHold = false → run.scene.gate.holds before.name = false := by
    intro free
    simpa [Gate.holds] using permitted.not_held found free
  have returns : before.phase = .pausing ∨ before.phase = .leaving →
      run.scene.gate.holds before.name = true ∧
        (run.scene.gate.release before.name).holds before.name = false := by
    intro phase
    refine ⟨?_, ?_⟩
    · rw [← held, sofar]
      exact Runner.holding_record phase
    · have notQueued : before.phase ≠ .queued := by
        rcases phase with phase | phase <;> simp [phase]
      have notWaiting := permitted.not_waiting found notQueued
      simpa [Gate.holds] using (Gate.release_fair permitted.fair notWaiting).2.2.1
  rw [marks_own found act, sofar, Runner.record_act act fits (decided.weighed _ _ found)
    (decided.judged _ _ found) decided.going wasFresh idle returns going]

theorem change (chronicled : Chronicled kinds diary run) (decided : Decided graph seeds kinds run)
    (held : ∀ name, Mark.holding (diary name) = run.scene.gate.holds name)
    (undisturbed : run.Undisturbed kinds step) (change : run.Change step next) :
    Chronicled kinds (fun name => diary name ++ run.marks name step next) next := by
  have quiet : next.find? = run.find? → next.scene.gate = run.scene.gate →
      next.scene.launches = run.scene.launches →
      (∀ name, Mark.sent name step run.scene next.scene = []) →
        Chronicled kinds (fun name => diary name ++ run.marks name step next) next := by
    intro look gate launches sent name runner found fresh going
    dsimp only
    rw [marks_of_idle (congrFun look name) gate launches (sent name), List.append_nil, gate]
    exact chronicled name runner (look ▸ found) fresh going
  cases change with
  | act found act =>
      intro name runner runnerFound fresh going
      rcases found_act found act.name runnerFound with ⟨rfl, rfl⟩ | ⟨different, earlier⟩
      · exact chronicled.act decided held found act fresh going
      · obtain ⟨kept, still⟩ := decided.permitted.permits_elsewhere found act different earlier
        dsimp only
        rw [marks_elsewhere found act different.symm, chronicled name runner earlier fresh going]
        cases name_of_find? earlier
        exact (Runner.record_elsewhere kept still).symm
  | line => exact quiet rfl rfl rfl fun _ => rfl
  | aggregate => exact quiet rfl rfl rfl fun _ => Mark.sent_of_same rfl
  | cancel => exact absurd undisturbed id
  | aside runners scene =>
      have events : next.scene.events = run.scene.events := congrArg Scene.events scene
      exact quiet (find?_of_runners runners) (congrArg Scene.gate scene)
        (congrArg Scene.launches scene) fun _ => Mark.sent_of_same events

/-- In a run that nobody stops, every diary is as the runner of its task stands. -/
theorem course {limit : Nat} {store : Store} {keeps saves : Bool} {slot : Option Snapshot}
    {steps : List Step} (sound : graph.Sound)
    (course : Course (Undisturbed kinds) (Run.start graph limit seeds store false keeps saves slot)
      steps run) :
    Chronicled kinds
      (fun name => (Run.start graph limit seeds store false keeps saves slot).diary name steps)
      run := by
  induction course with
  | start => exact start
  | step course undisturbed taken inductionHypothesis =>
      have decided := Decided.start.course sound course
      have reached := course.reached
      simp only [diary_concat reached taken]
      exact inductionHypothesis.change decided (fun _ => holding_diary rfl reached) undisturbed
        (change_of_step? taken)

end Chronicled

/-- What is seen of a task that is gone is its script, up to the attempt that decided. -/
theorem Chronicled.eq_script {name : String} {runner : Runner}
    (chronicled : Chronicled kinds diary run) (found : run.find? name = some runner)
    (fresh : runner.IsFresh) (gone : runner.phase = .gone)
    (concludes : runner.task.DecidedBy (kinds name) runner.attempts ∧
      runner.state = (kinds name runner.attempts).ending) :
    diary name = runner.task.script (kinds name) runner.attempts := by
  have attempted : runner.claimed ≠ .defaulted := by
    rw [Runner.claimed, gone]
    exact concludes.2 ▸ AttemptKind.ending_ne_defaulted _
  rw [chronicled name runner found fresh attempted]
  simp [Runner.record, gone, Runner.marksBefore, Runner.tries, Task.script, concludes.2]

/-- A task that takes part in a run which nobody stops, and that its dependencies let run, is
decided by the first attempt that does not simply fail, or by the last one that it is given.  Its
runner comes to an end, and then all that has been seen of the task is its script. -/
theorem retries_are_exact {tasks : List Task} (accepted : Graph.ofTasks tasks = .ok graph)
    {limit : Nat} {store : Store} {keeps saves : Bool} {slot : Option Snapshot} {steps : List Step}
    (course : Course (Undisturbed kinds) (start graph limit seeds store false keeps saves slot)
      steps run)
    {task : Task} (member : task ∈ graph.tasks) {isRestart : Bool}
    (fresh : seedOf seeds task.name = .fresh isRestart)
    (cleared : ∀ dependency ∈ task.dependsOn, run.Cleared dependency) :
    ∃ number, task.DecidedBy (kinds task.name) number ∧
      run.Finishes kinds task.name ∧
      ∃ runner, run.find? task.name = some runner ∧ runner.task = task ∧
        (runner.isGone = true →
          let decision := kinds task.name number
          runner.state = decision.ending ∧ runner.attempts = number ∧
            runner.outcome? =
              (if decision = .abort then none else some ⟨decision.ending, number⟩) ∧
            let seen := (start graph limit seeds store false keeps saves slot).diary task.name steps
            seen = task.script (kinds task.name) number ∧
              seen.filterMap Mark.move? = ((TaskState.init, TaskState.pending) ::
                (List.replicate (number - 1)
                  [(TaskState.pending, TaskState.running), (.running, .pending)]).flatten) ++
                  [(.pending, .running), (.running, decision.ending)] ∧
              seen.filterMap Mark.pause? = List.replicate (number - 1) task.backoff ∧
              Mark.RestsApart seen ∧
              seen.filterMap Mark.line? = if decision = .error then [.critical] else []) := by
  have sound := Graph.sound_of_ofTasks accepted
  have decided := Decided.start.course sound course
  have orderly := decided.orderly
  have listed : task.name ∈ graph.names := List.mem_map_of_mem member
  obtain ⟨number, decides⟩ := task.exists_decidedBy (kinds task.name)
  obtain ⟨runner, found⟩ := orderly.exists_runner listed
  have isTask := orderly.task_eq sound member found
  have finishes := decided.finishes sound listed
  refine ⟨number, decides, finishes, runner, found, isTask, ?_⟩
  intro isGone
  have gone : runner.phase = .gone := of_decide_eq_true isGone
  have isFresh : runner.IsFresh := ⟨isRestart, (orderly.staffed found).2.trans fresh⟩
  have claimed : runner.claimed = runner.state := by simp only [Runner.claimed, gone]
  have notDefaulted : runner.state ≠ .defaulted := by
    intro defaulted
    obtain ⟨dependency, depends, blocked⟩ :=
      (decided.blaming _ runner found).ends isFresh.not_restored (claimed.trans defaulted)
    exact (cleared dependency (isTask ▸ depends)).not_blocked blocked
  have weighed := decided.weighed _ runner found isFresh
  simp only [gone] at weighed
  have concludes := weighed.resolve_left fun given => notDefaulted given.1
  have whole : runner.attempts = number := (isTask ▸ concludes.1).unique decides
  have seen := (Chronicled.course sound course).eq_script found isFresh gone concludes
  rw [isTask, whole] at seen
  rw [whole] at concludes
  refine ⟨concludes.2, whole, ?_, ?_⟩
  · obtain ⟨restart, seed⟩ := isFresh
    simp only [Runner.outcome?, Runner.wasStopped, seed, whole, concludes.2]
    cases kinds task.name number <;> rfl
  · rw [seen]
    exact ⟨rfl, task.moves_script _ _, task.pauses_script _ _, task.restsApart_script _ _,
      task.lines_script _ _⟩

/-- Two tasks, the second of which depends on the first, has two attempts and pauses for a
second. -/
def patientTasks : List Task :=
  [⟨"first", "Sleep", [], 1, .zero, .null⟩,
    ⟨"second", "Sleep", ["first"], 2, .ofSeconds 1, .null⟩]

/-- The steps of the two tasks if both attempts of the second one fail. -/
def patientSteps : List Step :=
  List.flatten
    [List.replicate 9 (.runner "first"), [.ended "first" (.report ⟨false, false, []⟩)],
      List.replicate 4 (.runner "first"), List.replicate 10 (.runner "second"),
      [.ended "second" (.report ⟨true, false, []⟩)], List.replicate 4 (.runner "second"),
      [.rested "second"], List.replicate 4 (.runner "second"),
      [.ended "second" (.report ⟨true, false, []⟩)], List.replicate 4 (.runner "second")]

theorem patient_task_pauses_once :
    ∃ graph run, Graph.ofTasks patientTasks = .ok graph ∧
      (start graph 1 .empty .empty false false false none).steps? patientSteps = some run ∧
      run.Cleared "first" ∧
      ((start graph 1 .empty .empty false false false none).diary "second"
        patientSteps).filterMap Mark.pause? = [.ofSeconds 1] ∧
      ∃ runner, run.find? "second" = some runner ∧ runner.outcome? = some ⟨.failed, 2⟩ := by
  let second : Task := ⟨"second", "Sleep", ["first"], 2, .ofSeconds 1, .null⟩
  let kinds : String → Nat → AttemptKind := fun name _ =>
    if name = "second" then .failure else .success
  have accepted : Graph.ofTasks patientTasks = .ok ⟨patientTasks⟩ := by cbv
  have member : second ∈ patientTasks := List.mem_cons_of_mem _ List.mem_cons_self
  have handles : ((start ⟨patientTasks⟩ 1 .empty .empty false false false none).steps?
      patientSteps).map (fun run => (run.handle? "first", run.handle? "second")) =
        some (some ⟨.completed, true⟩, some ⟨.failed, true⟩) := by decide +kernel
  obtain ⟨run, reached, handles⟩ := Option.map_eq_some_iff.1 handles
  obtain ⟨first, firstFound, same⟩ := Option.map_eq_some_iff.1 (congrArg Prod.fst handles)
  obtain ⟨other, otherFound, gone⟩ := Option.map_eq_some_iff.1 (congrArg Prod.snd handles)
  have cleared : run.Cleared "first" := ⟨first, firstFound, Or.inl (congrArg Handle.state same)⟩
  have undisturbed : ∀ step ∈ patientSteps, ∀ run : Run, run.Undisturbed kinds step := by
    simp [patientSteps, Undisturbed, AttemptResult.kind, kinds]
  have lets : ∀ dependency ∈ second.dependsOn, run.Cleared dependency := by
    intro dependency depends
    cases List.mem_singleton.1 depends
    exact cleared
  obtain ⟨number, decided, _, runner, found, _, ends⟩ := retries_are_exact accepted
    (Course.of_steps? reached undisturbed) member rfl lets
  cases found.symm.trans otherFound
  have whole : number = 2 := decided.last.resolve_left fun different => different rfl
  obtain ⟨_, _, outcome, _, _, pauses, _⟩ := ends (congrArg Handle.gone gone)
  rw [whole] at outcome pauses
  exact ⟨_, run, accepted, reached, cleared, pauses, other, found, outcome⟩

end Run

end JobGraph
