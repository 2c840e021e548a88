import JobGraph.Proofs.Run.Dependencies
import JobGraph.Proofs.Run.Moves

/-!
# The lifecycle of a task

A task that ended in an earlier run is moved into that end at once.  Every other task is refused by
a run that was told to stop before, or becomes pending, runs and is pending again some number of
times, and ends.  `Lifecycle` lists these ways with every point at which a task may stand on them.

The runner of a task counts its attempts, and the moves and the launches follow that count: before a
task starts to run its runner is one ahead of the events, and until the launch one ahead of the
launches.
-/

namespace JobGraph

/-- So many attempts that failed, each followed by a pause. -/
def TaskState.retries (count : Nat) : List TaskState :=
  (List.replicate count [.running, .pending]).flatten

open TaskState (retries)

/-- The states that a task may have been moved into so far, one after the other. -/
inductive Lifecycle (seed : Seed) : List TaskState → Prop
  | unmoved : Lifecycle seed []
  | restored {state : TaskState} (ended : seed = .restored state) : Lifecycle seed [state]
  | refused (starts : ∀ state, seed ≠ .restored state) : Lifecycle seed [.aborted]
  | pending (starts : ∀ state, seed ≠ .restored state) (failed : Nat) :
      Lifecycle seed (.pending :: retries failed)
  | defaulted (starts : ∀ state, seed ≠ .restored state) : Lifecycle seed [.pending, .defaulted]
  | skipped (left : seed = .skip) : Lifecycle seed [.pending, .skip]
  | stopped (starts : ∀ state, seed ≠ .restored state) (failed : Nat) :
      Lifecycle seed ((.pending :: retries failed) ++ [.aborted])
  | running {isRestart : Bool} (fresh : seed = .fresh isRestart) (failed : Nat) :
      Lifecycle seed ((.pending :: retries failed) ++ [.running])
  | ended {isRestart : Bool} (fresh : seed = .fresh isRestart) (failed : Nat) {target : TaskState}
      (ends : target = .completed ∨ target = .failed ∨ target = .aborted) :
      Lifecycle seed ((.pending :: retries failed) ++ [.running] ++ [target])

namespace TaskState

theorem retries_succ (count : Nat) :
    retries (count + 1) = retries count ++ [.running] ++ [.pending] := by
  rw [retries, List.replicate_succ', List.flatten_append, List.append_assoc]
  rfl

@[simp]
theorem count_running_retries (count : Nat) : (retries count).count .running = count := by
  induction count with
  | zero => rfl
  | succ count inductionHypothesis =>
      rw [retries_succ, List.count_append, List.count_append, inductionHypothesis]
      rfl

@[simp]
theorem getLastD_pending_retries (count : Nat) (state : TaskState) :
    (.pending :: retries count).getLastD state = .pending := by
  cases count with
  | zero => rfl
  | succ count => rw [retries_succ, ← List.cons_append, List.getLastD_concat]

end TaskState

/-- The states that a task has been moved into when it is active in a state and so many attempts
have failed. -/
def TaskState.way (state : TaskState) (failed : Nat) : List TaskState :=
  match state with
  | .pending => .pending :: retries failed
  | .running => (.pending :: retries failed) ++ [.running]
  | _ => []

namespace Lifecycle

variable {seed : Seed} {targets : List TaskState}

/-- A task that is active has come there by attempts that failed, and it runs only if it is to be
run by this run. -/
theorem exists_way (lifecycle : Lifecycle seed targets)
    (clears : ∀ state, seed = .restored state → state.Clears)
    (active : (targets.getLastD .init).isTerminal = false) :
    ∃ failed, targets = (targets.getLastD .init).way failed ∧
      (targets.getLastD .init = .running → ∃ isRestart, seed = .fresh isRestart) := by
  cases lifecycle with
  | unmoved => exact ⟨0, rfl, fun running => by cases running⟩
  | restored ended => exact absurd ((clears _ ended).isTerminal.symm.trans active) (by decide)
  | refused | defaulted | skipped => cases active
  | pending _ failed =>
      rw [TaskState.getLastD_pending_retries]
      exact ⟨failed, rfl, fun running => by cases running⟩
  | stopped =>
      rw [List.getLastD_concat] at active
      cases active
  | running fresh failed =>
      rw [List.getLastD_concat]
      exact ⟨failed, rfl, fun _ => ⟨_, fresh⟩⟩
  | ended _ _ ends =>
      rw [List.getLastD_concat] at active
      rcases ends with rfl | rfl | rfl <;> cases active

theorem move {runner : Runner} {target : TaskState} {next : Next}
    (lifecycle : Lifecycle runner.seed targets)
    (clears : ∀ state, runner.seed = .restored state → state.Clears)
    (here : targets.getLastD .init = runner.state)
    (counted : next = .leave → targets.count .running = runner.attempts)
    (may : runner.MayMove target next) : Lifecycle runner.seed (targets ++ [target]) := by
  have active : (targets.getLastD .init).isTerminal = false := here ▸ may.source_active
  obtain ⟨failed, way, runs⟩ := lifecycle.exists_way clears active
  rw [here] at way runs
  have starts : ¬runner.IsRestored → ∀ state, runner.seed ≠ .restored state :=
    fun notRestored state seed => notRestored ⟨state, seed⟩
  -- A task that ends without having run has made no attempt.
  have unattempted : runner.state = .pending → next = .leave → runner.attempts = 0 →
      targets = [.pending] := by
    intro source leaves attempts
    have count := counted leaves
    rw [way, source, attempts] at count
    have none : failed = 0 := by simpa [TaskState.way] using count
    rw [way, source, none]
    rfl
  cases may with
  | restore seed source =>
      rw [way, source]
      exact .restored seed
  | start seed source =>
      rw [way, source]
      exact .pending (starts seed) 0
  | enter seed source =>
      obtain ⟨isRestart, fresh⟩ := seed
      rw [way, source]
      exact .running fresh failed
  | retry seed source =>
      rw [way, source, TaskState.way, List.cons_append, List.cons_append, ← TaskState.retries_succ]
      exact .pending (starts seed.not_restored) (failed + 1)
  | succeed seed source =>
      obtain ⟨isRestart, fresh⟩ := seed
      rw [way, source]
      exact .ended fresh failed (Or.inl rfl)
  | fail seed source =>
      obtain ⟨isRestart, fresh⟩ := seed
      rw [way, source]
      exact .ended fresh failed (Or.inr (Or.inl rfl))
  | giveUp seed source attempts =>
      rw [unattempted source rfl attempts]
      exact .defaulted (starts seed)
  | skip seed source attempts =>
      rw [unattempted source rfl attempts]
      exact .skipped seed
  | abort seed source =>
      cases state : runner.state with
      | init =>
          rw [way, state]
          exact .refused (starts seed)
      | pending =>
          rw [way, state]
          exact .stopped (starts seed) failed
      | running =>
          obtain ⟨isRestart, fresh⟩ := runs state
          rw [way, state]
          exact .ended fresh failed (Or.inr (Or.inr rfl))
      | completed | failed | defaulted | aborted | skip =>
          rw [state] at source
          cases source

end Lifecycle

/-! ## What the events and the launches say of a runner -/

namespace Phase

/-- The phase before the event that says that the task runs. -/
def isEntering : Phase → Bool
  | .announcing _ next => next = .launch
  | _ => false

/-- The phases between that event and the launch of the attempt. -/
def isStarting : Phase → Bool
  | .publishing _ next => next = .launch
  | .launching => true
  | _ => false

end Phase

namespace Runner

/-- How often the events have said that the task runs. -/
def entries (runner : Runner) : Nat :=
  if runner.phase.isEntering then runner.attempts - 1 else runner.attempts

/-- How many attempts have been launched. -/
def calls (runner : Runner) : Nat :=
  if runner.phase.isEntering || runner.phase.isStarting then runner.attempts - 1
  else runner.attempts

/-- What has been told of the task of a runner and launched for it, so far. -/
structure Told (runner : Runner) (targets : List TaskState) (requests : List Request) : Prop where
  lifecycle : Lifecycle runner.seed targets
  entries : targets.count .running = runner.entries
  calls : requests.length = runner.calls
  numbered : ∀ index request, requests[index]? = some request → request.attempt = index + 1 ∧
    (request.isRestart = true ↔ runner.seed = .fresh true ∨ 1 < index + 1)

variable {handle? : String → Option Handle} {runner next : Runner} {scene after : Scene}
  {step : Step} {targets : List TaskState} {requests : List Request}

theorem Told.ofTask (task : Task) (seed : Seed) : (ofTask task seed).Told [] [] :=
  ⟨.unmoved, rfl, rfl, fun _ _ there => by cases there⟩

/-- Between the event and the launch, the runner has counted the attempt. -/
theorem Fits.entries_eq (fits : runner.Fits) :
    runner.entries = runner.calls + if runner.phase.isStarting then 1 else 0 := by
  cases phase : runner.phase with
  | launching =>
      simp only [Fits, phase] at fits
      have some := fits.2.2.1
      simp only [entries, calls, phase, Phase.isEntering, Phase.isStarting, Bool.or_true, if_true,
        Bool.false_eq_true, if_false]
      omega
  | publishing target further =>
      simp only [Fits, phase] at fits
      simp only [entries, calls, phase, Phase.isEntering, Phase.isStarting, Bool.false_or,
        Bool.false_eq_true, if_false]
      cases further with
      | launch =>
          cases fits with
          | enter _ _ some =>
              simp only [decide_true, if_true]
              omega
      | wait | pause | leave => rfl
  | announcing target further =>
      cases further <;> simp [entries, calls, phase, Phase.isEntering, Phase.isStarting]
  | _ => simp [entries, calls, phase, Phase.isEntering, Phase.isStarting]

/-- A runner that claims an end has launched all attempts that it counts. -/
theorem Fits.calls_of_ended (fits : runner.Fits) (ended : runner.claimed.isTerminal = true) :
    runner.calls = runner.attempts := by
  rcases fits.end_cases ended with ⟨target, further, same, may, phase⟩ | ⟨_, phase⟩
  · rw [same] at ended
    cases may.leaves ended
    rcases phase with phase | phase
    all_goals simp [calls, phase, Phase.isEntering, Phase.isStarting]
  · rcases phase with phase | phase
    all_goals simp [calls, phase, Phase.isEntering, Phase.isStarting]

theorem entries_le_attempts (runner : Runner) : runner.entries ≤ runner.attempts := by
  unfold entries
  split <;> omega

theorem filter_launched (runner : Runner) (store : Store) (name : String) :
    (runner.launched store).filter (fun request => request.name = name) =
      if runner.name = name then runner.launched store else [] := by
  have named : (runner.request store).name = runner.name := rfl
  unfold launched
  split
  · by_cases same : runner.name = name <;> simp [named, same]
  · simp

theorem Act.counts (act : runner.Act handle? scene step next after)
    (notTold : runner.phase.announced = []) (notLaunched : runner.phase ≠ .launching) :
    next.entries = runner.entries ∧ next.calls = runner.calls := by
  cases act with
  | announce phase => simp [phase, Phase.announced] at notTold
  | launch phase => exact absurd phase notLaunched
  | publish phase =>
      rename_i target further
      cases further <;>
        simp [entries, calls, phase, Phase.isEntering, Phase.isStarting, Next.phase]
  | pass phase | enter phase =>
      have before : runner.entries = runner.attempts ∧ runner.calls = runner.attempts := by
        simp [entries, calls, phase, Phase.isEntering, Phase.isStarting]
      exact ⟨before.1.symm, before.2.symm⟩
  | stop heeds =>
      cases phase : runner.phase with
      | ready | arrived | waiting | asking | resting | reported =>
          simp [entries, calls, phase, Phase.isEntering, Phase.isStarting, Runner.abort,
            Runner.announce]
      | _ => simp [Phase.heedsStop, phase] at heeds
  | _ phase =>
      simp [entries, calls, phase, Phase.isEntering, Phase.isStarting, Runner.abort,
        Runner.announce]

private theorem Told.launch (told : runner.Told targets requests) (fits : runner.Fits)
    (phase : runner.phase = .launching) (store : Store) :
    ({ runner with phase := .attempting } : Runner).Told targets
      (requests ++ [runner.request store]) := by
  have calls := told.calls
  have entries := told.entries
  simp only [Fits, phase] at fits
  simp only [Runner.calls, phase, Phase.isEntering, Phase.isStarting, Bool.or_true,
    if_true] at calls
  simp only [Runner.entries, phase, Phase.isEntering, Bool.false_eq_true, if_false] at entries
  have whole : requests.length + 1 = runner.attempts := by omega
  refine ⟨told.lifecycle, entries, ?_, ?_⟩
  · rw [List.length_append, List.length_singleton]
    exact whole
  · intro index request there
    by_cases earlier : index < requests.length
    · rw [List.getElem?_append_left earlier] at there
      exact told.numbered index request there
    · have final : index = requests.length := by
        have bound := (List.getElem?_eq_some_iff.1 there).1
        rw [List.length_append, List.length_singleton] at bound
        omega
      rw [final, List.getElem?_concat_length, Option.some_inj] at there
      rw [← there, final, whole]
      refine ⟨rfl, ?_⟩
      simp [Runner.request]

private theorem Told.announce {target : TaskState} {further : Next}
    (told : runner.Told targets requests) (fits : runner.Fits)
    (clears : ∀ state, runner.seed = .restored state → state.Clears)
    (here : targets.getLastD .init = runner.logged)
    (phase : runner.phase = .announcing target further) :
    ({ runner with phase := .publishing target further } : Runner).Told (targets ++ [target])
      requests := by
  have notRestored : runner.seed ≠ .restored .running := by
    intro seed
    cases (clears _ seed).isTerminal
  have entries := told.entries
  simp only [Fits, phase] at fits
  simp only [logged, phase] at here
  simp only [Runner.entries, phase, Phase.isEntering] at entries
  refine ⟨?_, ?_, ?_, told.numbered⟩
  · apply told.lifecycle.move clears here ?_ fits
    intro leaves
    rw [entries, leaves]
    rfl
  · simp only [Runner.entries, Phase.isEntering, Bool.false_eq_true, if_false]
    rw [List.count_append, entries]
    by_cases launch : further = .launch
    · have running : target = .running := (fits.launch_iff notRestored).1 launch
      have some : 1 ≤ runner.attempts := by
        cases launch
        cases fits with
        | enter _ _ some => exact some
      rw [running, launch, List.count_singleton_self]
      simp only [decide_true, if_true]
      omega
    · have notRunning : target ≠ .running := fun running =>
        launch ((fits.launch_iff notRestored).2 running)
      simp [launch, notRunning]
  · rw [told.calls]
    simp [Runner.calls, phase, Phase.isEntering, Phase.isStarting]

theorem Told.act (told : runner.Told targets requests) (fits : runner.Fits)
    (clears : ∀ state, runner.seed = .restored state → state.Clears)
    (here : targets.getLastD .init = runner.logged)
    (act : runner.Act handle? scene step next after) :
    next.Told (targets ++ runner.phase.announced) (requests ++ runner.launched scene.store) := by
  have quiet : runner.phase.announced = [] → runner.phase ≠ .launching →
      next.Told (targets ++ runner.phase.announced) (requests ++ runner.launched scene.store) := by
    intro notTold notLaunching
    obtain ⟨entries, calls⟩ := act.counts notTold notLaunching
    rw [notTold, launched, if_neg notLaunching, List.append_nil, List.append_nil]
    exact ⟨act.seed ▸ told.lifecycle, entries ▸ told.entries, calls ▸ told.calls,
      act.seed ▸ told.numbered⟩
  cases act with
  | announce phase =>
      rw [launched, phase, if_neg (fun same => by cases same), List.append_nil]
      exact told.announce fits clears here phase
  | launch phase =>
      have notTold : runner.phase.announced = [] := by rw [phase]; rfl
      rw [launched, if_pos phase, notTold, List.append_nil]
      exact told.launch fits phase _
  | stop heeds =>
      apply quiet
      · cases phase : runner.phase with
        | announcing => simp [Phase.heedsStop, phase] at heeds
        | _ => rfl
      · intro phase
        simp [Phase.heedsStop, phase] at heeds
  | _ phase => exact quiet (by rw [phase]; rfl) (by rw [phase]; exact fun same => by cases same)

end Runner

/-! ## All runners -/

namespace Run

variable {graph : Graph} {seeds : KeyMap Seed} {run next : Run} {step : Step}

/-- The attempts at a task that were launched, one after the other. -/
def callsOf (run : Run) (name : String) : List Request :=
  run.scene.launches.filter fun request => request.name = name

theorem callsOf_act {before runner : Runner} {scene : Scene}
    (act : before.Act run.handle? run.scene step runner scene) (name : String) :
    ({ run.put runner with scene } : Run).callsOf name = run.callsOf name ++
      if before.name = name then before.launched run.scene.store else [] := by
  simp only [callsOf, act.launches, List.filter_append, Runner.filter_launched]

/-- What is told of every task and launched for it is what its runner has done. -/
def Narrated (run : Run) : Prop :=
  ∀ name runner, run.find? name = some runner →
    runner.Told (History.targetsOf run.scene.events name) (run.callsOf name)

theorem Narrated.start {limit : Nat} {store : Store} {cancelled keeps saves : Bool}
    {slot : Option Snapshot} :
    Narrated (start graph limit seeds store cancelled keeps saves slot) := by
  intro name runner found
  obtain ⟨task, _, same⟩ := List.mem_map.1 (mem_of_find? found)
  cases same
  exact Runner.Told.ofTask task _

theorem Narrated.change (narrated : Narrated run) (orderly : Orderly graph seeds run)
    (restores : seeds.RestoresCleared) (change : run.Change step next) : Narrated next := by
  cases change with
  | act found act =>
      rename_i before runner scene
      intro name other otherFound
      rw [act.targets name, callsOf_act act name]
      rcases found_act found act.name otherFound with ⟨rfl, rfl⟩ | ⟨elsewhere, earlier⟩
      · rw [if_pos rfl, if_pos rfl]
        refine (narrated _ _ found).act (orderly.fits found) ?_ ?_ act
        · intro state seed
          exact restores.clears ((orderly.staffed found).2.symm.trans seed)
        · rw [← History.stateOf_eq_getLastD]
          exact orderly.logged found
      · rw [if_neg (Ne.symm elsewhere), if_neg (Ne.symm elsewhere), List.append_nil,
          List.append_nil]
        exact narrated name other earlier
  | line =>
      intro name other otherFound
      rw [Scene.send, History.targetsOf_append, History.targetsOf_logged, List.append_nil]
      exact narrated name other otherFound
  | cancel | aggregate => exact narrated
  | aside runners scene =>
      intro name other otherFound
      rw [callsOf, scene]
      exact narrated name other (find?_of_runners runners ▸ otherFound)

/-- In every run the moves of a task form a chain, and its states follow its lifecycle; when its
runner is gone, the lifecycle has come to an end.  Each move to `running` goes before one launch,
and the launches are numbered from one up to at most as many attempts as the task is given. -/
theorem moves_follow_lifecycle {tasks : List Task} (accepted : Graph.ofTasks tasks = .ok graph)
    (restores : seeds.RestoresCleared) {limit : Nat} {store : Store} {cancelled keeps saves : Bool}
    {slot : Option Snapshot} {steps : List Step}
    (course : (start graph limit seeds store cancelled keeps saves slot).steps? steps = some run)
    {task : Task} (member : task ∈ graph.tasks) :
    ∃ runner, run.find? task.name = some runner ∧ runner.task = task ∧
      History.Chained (History.movesOf run.scene.events task.name) ∧
      Lifecycle (seedOf seeds task.name) (History.targetsOf run.scene.events task.name) ∧
      (runner.isGone = true →
        (History.stateOf run.scene.events task.name).isTerminal = true) ∧
      (History.targetsOf run.scene.events task.name).count .running =
        (run.callsOf task.name).length + (if runner.phase.isStarting then 1 else 0) ∧
      (History.targetsOf run.scene.events task.name).count .running ≤ max 1 task.maxAttempts ∧
      ∀ index request, (run.callsOf task.name)[index]? = some request →
        request.attempt = index + 1 ∧
          (request.isRestart = true ↔ seedOf seeds task.name = .fresh true ∨ 1 < index + 1) := by
  have sound := Graph.sound_of_ofTasks accepted
  have reached : Orderly graph seeds run ∧ Narrated run := by
    have taken : Course (fun _ _ => True) _ steps run :=
      Course.of_steps? course fun _ _ _ => trivial
    refine taken.invariant (P := fun run => Orderly graph seeds run ∧ Narrated run)
      ⟨Orderly.start, Narrated.start⟩ ?_
    rintro run next step ⟨orderly, narrated⟩ _ change
    exact ⟨orderly.change change, narrated.change orderly restores change⟩
  obtain ⟨orderly, narrated⟩ := reached
  have listed : task.name ∈ graph.names := List.mem_map_of_mem member
  obtain ⟨runner, found⟩ := find?_of_mem_names (orderly.names.symm ▸ listed)
  have isTask : runner.task = task :=
    sound.task_unique (orderly.staffed found).1 member (name_of_find? found)
  have seed := (orderly.staffed found).2
  have fits := orderly.fits found
  have told := narrated _ runner found
  refine ⟨runner, found, isTask, orderly.sound.chained _, seed ▸ told.lifecycle, ?_, ?_, ?_,
    seed ▸ told.numbered⟩
  · intro gone
    have phase : runner.phase = .gone := of_decide_eq_true gone
    have settled : runner.handle.settled? = some runner.state := by
      simp [Handle.settled?, Runner.handle, gone]
    rw [orderly.logged found, Runner.logged, phase]
    exact (orderly.isTerminal_of_settled restores found settled).2
  · rw [told.entries, told.calls]
    exact fits.entries_eq
  · rw [told.entries, ← isTask]
    exact Nat.le_trans runner.entries_le_attempts fits.attempts_le

/-- The steps of a task whose first attempt fails and whose second one does not. -/
def secondTrySteps : List Step :=
  List.replicate 9 (.runner "left") ++ [.ended "left" (.report ⟨true, false, []⟩)] ++
    List.replicate 4 (.runner "left") ++ [.rested "left"] ++ List.replicate 4 (.runner "left") ++
      [.ended "left" (.report ⟨false, false, []⟩)] ++ List.replicate 4 (.runner "left")

theorem second_try_follows_lifecycle :
    ∃ run, (start Graph.rivals 0 .empty .empty false false false none).steps? secondTrySteps =
      some run ∧
        History.targetsOf run.scene.events "left" =
          [.pending, .running, .pending, .running, .completed] ∧
        (run.callsOf "left").map Request.attempt = [1, 2] ∧
        Lifecycle (.fresh false)
          (History.targetsOf run.scene.events "left") ∧
        (History.targetsOf run.scene.events "left").count .running ≤ 2 ∧
        ∀ index request, (run.callsOf "left")[index]? = some request →
          request.attempt = index + 1 ∧
            (request.isRestart = true ↔ seedOf .empty "left" = .fresh true ∨ 1 < index + 1) := by
  obtain ⟨run, reached, targets, calls⟩ :
      ∃ run, (start Graph.rivals 0 .empty .empty false false false none).steps? secondTrySteps =
        some run ∧ History.targetsOf run.scene.events "left" =
          [.pending, .running, .pending, .running, .completed] ∧
            (run.callsOf "left").map Request.attempt = [1, 2] :=
    ⟨_, rfl, rfl, rfl⟩
  have restores : KeyMap.RestoresCleared .empty := fun _ _ known => by cases known
  obtain ⟨_, _, _, _, lifecycle, _, _, most, numbered⟩ :=
    moves_follow_lifecycle Graph.rivals_accepted restores reached
      (List.mem_cons_self : ⟨"left", "Sleep", [], 2, .zero, .null⟩ ∈ Graph.rivals.tasks)
  exact ⟨run, reached, targets, calls, lifecycle, most, numbered⟩

end Run

end JobGraph
