import JobGraph.Proofs.Run.Dependencies
import JobGraph.Proofs.Run.Permits

/-!
# No more tasks run at once than the limit allows

A gate with a limit never has more permits out than that, and nobody at the gate takes a permit from
somebody else.  A runner holds its permit from the announcement that its task runs until after the
event that says otherwise (`Runner.Needs`).  So at every moment the tasks that are running for the
events are holders of permits, and there are at most as many of them as permits.
-/

namespace JobGraph

namespace Gate

/-- No more permits are out than the limit allows, if there is a limit. -/
def Within (gate : Gate) : Prop := gate.limit ≠ 0 → gate.held.length ≤ gate.limit

/-- What one participant does at the gate exceeds no limit and takes no permit from others. -/
structure Minds (name : String) (gate next : Gate) : Prop where
  limit : next.limit = gate.limit
  within : gate.Within → next.Within
  held : ∀ other, other ≠ name → other ∈ gate.held → other ∈ next.held

variable {gate middle next : Gate} {name : String}

theorem Minds.refl : Minds name gate gate := ⟨rfl, id, fun _ _ holds => holds⟩

theorem Minds.trans (first : Minds name gate middle) (second : Minds name middle next) :
    Minds name gate next :=
  ⟨second.limit.trans first.limit, fun within => second.within (first.within within),
    fun other different holds => second.held other different (first.held other different holds)⟩

theorem ofLimit_within (limit : Nat) : (ofLimit limit).Within := fun _ => Nat.zero_le limit

theorem held_length_lt_of_hasRoom (room : gate.hasRoom = true) (limited : gate.limit ≠ 0) :
    gate.held.length < gate.limit := by
  rcases Bool.or_eq_true_iff.1 room with unlimited | below
  · exact absurd (of_decide_eq_true unlimited) limited
  · exact of_decide_eq_true below

theorem grantFrom_minds {queue : List String} :
    ∀ gate : Gate, Minds name gate (gate.grantFrom queue) := by
  induction queue with
  | nil => exact fun gate => ⟨rfl, id, fun _ _ holds => holds⟩
  | cons first rest inductionHypothesis =>
      intro gate
      rw [grantFrom]
      by_cases room : gate.hasRoom = true
      · rw [if_pos room]
        refine Minds.trans ?_ (inductionHypothesis _)
        by_cases again : first ∈ gate.held
        · rw [if_pos again]
          exact Minds.refl
        · rw [if_neg again]
          refine ⟨rfl, ?_, fun _ _ holds => List.mem_append_left _ holds⟩
          intro _ limited
          have below := held_length_lt_of_hasRoom room limited
          rw [List.length_append, List.length_singleton]
          exact below
      · rw [if_neg room]
        exact ⟨rfl, id, fun _ _ holds => holds⟩

theorem acquire_minds (gate : Gate) (name : String) : Minds name gate (gate.acquire name) := by
  have served : Minds name { gate with waiting := gate.waiting ++ [name] } (gate.acquire name) :=
    grantFrom_minds _
  exact ⟨served.limit, served.within, served.held⟩

theorem cancel_minds (gate : Gate) (name : String) : Minds name gate (gate.cancel name) := by
  have served : Minds name { gate with waiting := gate.waiting.filter (· ≠ name) }
      (gate.cancel name) := grantFrom_minds _
  exact ⟨served.limit, served.within, served.held⟩

theorem release_minds (gate : Gate) (name : String) : Minds name gate (gate.release name) := by
  have returned : Minds name gate { gate with held := gate.held.erase name } := by
    refine ⟨rfl, ?_, fun other different holds => (List.mem_erase_of_ne different).2 holds⟩
    intro within limited
    exact Nat.le_trans List.length_erase_le (within limited)
  exact returned.trans (grantFrom_minds _)

end Gate

/-! ## Who needs a permit -/

namespace Runner

/-- The runner is between the announcement that its task runs and the return of its permit. -/
def Needs (runner : Runner) : Prop :=
  match runner.phase with
  | .launching | .attempting | .reported _ | .pausing => True
  | .announcing _ next | .publishing _ next =>
    next = .launch ∨ next = .pause ∨ runner.state = .running
  | _ => False

variable {handle? : String → Option Handle} {runner next : Runner} {scene after : Scene}
  {step : Step}

/-- A task that is running for the events needs a permit. -/
theorem Fits.needs_of_logged (fits : runner.Fits) (running : runner.logged = .running)
    (notRestored : runner.seed ≠ .restored .running) : runner.Needs := by
  cases phase : runner.phase with
  | launching | attempting | reported | pausing => simp only [Needs, phase]
  | announcing target next =>
      simp only [logged, phase] at running
      simp only [Needs, phase]
      exact Or.inr (Or.inr running)
  | publishing target next =>
      simp only [logged, phase] at running
      simp only [Fits, phase] at fits
      simp only [Needs, phase]
      exact Or.inl ((fits.launch_iff notRestored).2 running)
  | leaving | gone =>
      simp only [logged, phase] at running
      simp only [Fits, phase, running] at fits
      by_cases restored : runner.IsRestored
      · exact absurd (fits.1 restored) notRestored
      · cases fits.2.1 restored
  | ready =>
      simp only [logged, phase] at running
      simp only [Fits, phase] at fits
      cases running.symm.trans fits.1
  | arrived | waiting | asking | queued | resting =>
      simp only [logged, phase] at running
      simp only [Fits, phase] at fits
      cases running.symm.trans fits.2.1

theorem not_needs_announce {target : TaskState} (notRunning : runner.state ≠ .running) :
    ¬(runner.announce target .leave).Needs := by
  rintro (launch | pause | running)
  · cases launch
  · cases pause
  · exact notRunning running

theorem Act.minds (act : runner.Act handle? scene step next after) :
    Gate.Minds runner.name scene.gate after.gate := by
  cases act with
  | pass | queue => exact Gate.acquire_minds _ _
  | withdraw => exact (Gate.cancel_minds _ _).trans (Gate.release_minds _ _)
  | release | leave => exact Gate.release_minds _ _
  | _ => exact Gate.Minds.refl

/-- A runner never comes to need a permit that it does not hold. -/
theorem Act.holds_of_needs (act : runner.Act handle? scene step next after) (fits : runner.Fits)
    (holds : runner.Needs → runner.name ∈ scene.gate.held) (needs : next.Needs) :
    runner.name ∈ after.gate.held := by
  have idle : ∀ state : TaskState, runner.state = state → state ≠ .running → ∀ target,
      ¬(runner.announce target .leave).Needs := by
    intro state same notRunning target
    exact not_needs_announce (same ▸ notRunning)
  cases act with
  | pass _ granted => simpa [Gate.holds] using granted
  | enter _ granted => simpa [Gate.holds] using granted
  | restore phase =>
      simp only [Fits, phase] at fits
      exact absurd needs (idle .init fits.1 (by decide) _)
  | giveUp phase | skip phase | withdraw phase =>
      simp only [Fits, phase] at fits
      exact absurd needs (idle .pending fits.2.1 (by decide) _)
  | start phase =>
      simp only [Fits, phase] at fits
      rcases needs with launch | pause | running
      · cases launch
      · cases pause
      · cases fits.1.symm.trans running
  | stop heeds =>
      cases phase : runner.phase with
      | reported => exact holds (by simp only [Needs, phase])
      | ready =>
          simp only [Fits, phase] at fits
          exact absurd needs (idle .init fits.1 (by decide) _)
      | arrived | waiting | asking | resting =>
          simp only [Fits, phase] at fits
          exact absurd needs (idle .pending fits.2.1 (by decide) _)
      | _ => simp [Phase.heedsStop, phase] at heeds
  | arrive | hear | miss | clear | queue | release | wake | leave => exact absurd needs id
  | launch phase | finish phase | obey phase | succeed phase | exhaust phase | retry phase
  | fail phase => exact holds (by simp only [Needs, phase])
  | announce phase =>
      apply holds
      simp only [Needs, phase]
      exact needs
  | publish phase =>
      rename_i target further
      apply holds
      simp only [Needs, phase]
      cases further with
      | launch => exact Or.inl rfl
      | pause => exact Or.inr (Or.inl rfl)
      | wait | leave => exact absurd needs id

end Runner

/-! ## Permits and runners -/

namespace Run

variable {graph : Graph} {seeds : KeyMap Seed} {limit : Nat} {run next : Run} {step : Step}

/-- The gate keeps to the limit of the run, and every runner that needs a permit holds one. -/
structure Limited (limit : Nat) (run : Run) : Prop where
  limit : run.scene.gate.limit = limit
  within : run.scene.gate.Within
  holding : ∀ name runner, run.find? name = some runner → runner.Needs →
    name ∈ run.scene.gate.held

theorem Limited.start {store : Store} {cancelled keeps saves : Bool} {slot : Option Snapshot} :
    Limited limit (start graph limit seeds store cancelled keeps saves slot) := by
  refine ⟨rfl, Gate.ofLimit_within limit, ?_⟩
  intro name runner found needs
  obtain ⟨task, _, same⟩ := List.mem_map.1 (mem_of_find? found)
  cases same
  exact absurd needs id

theorem Limited.change (limited : Limited limit run) (orderly : Orderly graph seeds run)
    (change : run.Change step next) : Limited limit next := by
  cases change with
  | act found act =>
      rename_i before runner scene
      have minds := act.minds
      refine ⟨minds.limit.trans limited.limit, minds.within limited.within, ?_⟩
      intro name other otherFound needs
      rcases found_act found act.name otherFound with ⟨rfl, rfl⟩ | ⟨elsewhere, earlier⟩
      · exact act.holds_of_needs (orderly.fits found) (limited.holding _ _ found) needs
      · exact minds.held name elsewhere (limited.holding name other earlier needs)
  | line | cancel | aggregate => exact ⟨limited.limit, limited.within, limited.holding⟩
  | aside runners scene =>
      refine ⟨scene ▸ limited.limit, scene ▸ limited.within, ?_⟩
      rw [scene, find?_of_runners runners]
      exact limited.holding

/-- As many distinct names as there are permits can be among the holders, and no more. -/
theorem Limited.length_le (limited : Limited limit run) (positive : 0 < limit) {names : List String}
    (distinct : names.Nodup) (hold : ∀ name ∈ names, name ∈ run.scene.gate.held) :
    names.length ≤ limit := by
  have within : run.scene.gate.held.length ≤ limit := by
    rw [← limited.limit]
    exact limited.within (by rw [limited.limit]; omega)
  exact Nat.le_trans (List.subperm_of_subset distinct hold).length_le within

theorem Limited.mem_held (limited : Limited limit run) (orderly : Orderly graph seeds run)
    (restores : seeds.RestoresCleared) {name : String}
    (running : History.stateOf run.scene.events name = .running) :
    name ∈ run.scene.gate.held := by
  have left : History.stateOf run.scene.events name ≠ .init := by
    rw [running]
    decide
  obtain ⟨position, source, there⟩ := History.exists_move left
  have listed : name ∈ graph.names := (orderly.sound position _ there).1
  obtain ⟨runner, found⟩ := orderly.exists_runner listed
  have notRestored : runner.seed ≠ .restored .running := by
    intro seed
    rw [(orderly.staffed found).2] at seed
    cases (restores.clears seed).isTerminal
  have needs := (orderly.fits found).needs_of_logged ((orderly.logged found).symm.trans running)
    notRestored
  exact limited.holding name runner found needs

theorem Limited.attempting_le (limited : Limited limit run) (positive : 0 < limit)
    (distinct : (run.runners.map Runner.name).Nodup) :
    (run.runners.countP fun runner => runner.phase = .attempting) ≤ limit := by
  rw [List.countP_eq_length_filter, ← List.length_map Runner.name]
  apply limited.length_le positive
  · exact distinct.sublist (List.filter_sublist.map Runner.name)
  · intro name listed
    obtain ⟨runner, member, rfl⟩ := List.mem_map.1 listed
    obtain ⟨listedRunner, attempting⟩ := List.mem_filter.1 member
    have phase : runner.phase = .attempting := of_decide_eq_true attempting
    exact limited.holding _ runner (find?_of_mem distinct listedRunner)
      (by simp only [Runner.Needs, phase])

theorem Permitted.held_of_isQuiet (permitted : Permitted run) (quiet : run.isQuiet = true) :
    run.scene.gate.held = [] := by
  rw [List.eq_nil_iff_forall_not_mem]
  intro name holds
  obtain ⟨runner, found, may⟩ := permitted.holders name holds
  have gone : runner.phase = .gone := by
    simpa [Runner.isGone] using List.all_eq_true.1 quiet runner (mem_of_find? found)
  rw [gone] at may
  cases may

end Run

/-! ## The events of a run -/

namespace History

/-- After no part of the events more of the named tasks are running than that. -/
def RunAtMost (limit : Nat) (names : List String) (events : List Event) : Prop :=
  ∀ length, (names.countP fun name => stateOf (events.take length) name = .running) ≤ limit

theorem RunAtMost.nil {limit : Nat} {names : List String} : RunAtMost limit names [] := by
  intro length
  rw [List.take_nil, List.countP_eq_zero.2 fun _ _ => by simp [stateOf]]
  exact Nat.zero_le limit

theorem RunAtMost.concat {limit : Nat} {names : List String} {events : List Event} {event : Event}
    (most : RunAtMost limit names events)
    (now : (names.countP fun name => stateOf (events ++ [event]) name = .running) ≤ limit) :
    RunAtMost limit names (events ++ [event]) := by
  intro length
  by_cases inside : length ≤ events.length
  · rw [List.take_append_of_le_length inside]
    exact most length
  · rw [List.take_of_length_le (by rw [List.length_append, List.length_singleton]; omega)]
    exact now

end History

namespace Run

variable {graph : Graph} {seeds : KeyMap Seed} {limit : Nat} {run next : Run} {step : Step}

theorem Limited.running_le (limited : Limited limit run) (orderly : Orderly graph seeds run)
    (restores : seeds.RestoresCleared) (positive : 0 < limit) (distinct : graph.names.Nodup) :
    (graph.names.countP fun name => History.stateOf run.scene.events name = .running) ≤ limit := by
  rw [List.countP_eq_length_filter]
  apply limited.length_le positive (distinct.filter _)
  intro name listed
  have running := of_decide_eq_true (List.mem_filter.1 listed).2
  exact limited.mem_held orderly restores running

/-- In every run with a limit, after each part of the events at most so many tasks are running, and
at most so many attempts are under way at once.  The runner of a task that is running for the events
holds a permit; a runner that waits for dependencies, pauses or is gone holds none; and when all are
gone, all permits are free. -/
theorem running_within_limit {tasks : List Task} (accepted : Graph.ofTasks tasks = .ok graph)
    (restores : seeds.RestoresCleared) (positive : 0 < limit) {store : Store}
    {cancelled keeps saves : Bool} {slot : Option Snapshot} {steps : List Step}
    (course : (start graph limit seeds store cancelled keeps saves slot).steps? steps = some run) :
    (∀ length, (graph.names.countP fun name =>
      History.stateOf (run.scene.events.take length) name = .running) ≤ limit) ∧
    (run.runners.countP fun runner => runner.phase = .attempting) ≤ limit ∧
    (∀ name, History.stateOf run.scene.events name = .running →
      run.scene.gate.holds name = true) ∧
    (∀ name runner, run.find? name = some runner →
      (∃ rest good, runner.phase = .waiting rest good) ∨
          (∃ pause, runner.phase = .resting pause) ∨ runner.phase = .gone →
        run.scene.gate.holds name = false) ∧
    (run.isQuiet = true → run.scene.gate.available? = some limit) := by
  have distinct := (Graph.sound_of_ofTasks accepted).distinct
  have reached : Orderly graph seeds run ∧ Permitted run ∧ Limited limit run ∧
      History.RunAtMost limit graph.names run.scene.events := by
    have taken : Course (fun _ _ => True) _ steps run :=
      Course.of_steps? course fun _ _ _ => trivial
    refine taken.invariant
      (P := fun run => Orderly graph seeds run ∧ Permitted run ∧ Limited limit run ∧
        History.RunAtMost limit graph.names run.scene.events)
      ⟨Orderly.start, Permitted.start, Limited.start, History.RunAtMost.nil⟩ ?_
    rintro run next step ⟨orderly, permitted, limited, most⟩ _ change
    have after := orderly.change change
    have still := limited.change orderly change
    refine ⟨after, permitted.change change, still, ?_⟩
    rcases change.sent with same | ⟨event, more⟩
    · rw [same]
      exact most
    · rw [more]
      exact most.concat (more ▸ still.running_le after restores positive distinct)
  obtain ⟨orderly, permitted, limited, most⟩ := reached
  refine ⟨most, limited.attempting_le positive (orderly.names ▸ distinct), ?_, ?_, ?_⟩
  · intro name running
    simpa [Gate.holds] using limited.mem_held orderly restores running
  · intro name runner found idle
    have phase : runner.phase.mayHold = false := by
      rcases idle with ⟨rest, good, waiting⟩ | ⟨pause, resting⟩ | gone
      · rw [waiting]
        rfl
      · rw [resting]
        rfl
      · rw [gone]
        rfl
    cases name_of_find? found
    simpa [Gate.holds] using permitted.not_held found phase
  · intro quiet
    rw [Gate.available?, limited.limit, permitted.held_of_isQuiet quiet, if_neg (by omega)]
    rfl

/-- The steps of two tasks that share one permit, until the second has it while the first, which has
failed once, pauses. -/
def rivalSteps : List Step :=
  List.replicate 9 (.runner "left") ++ List.replicate 6 (.runner "right") ++
    [.ended "left" (.report ⟨true, false, []⟩)] ++ List.replicate 4 (.runner "left") ++
      List.replicate 4 (.runner "right")

theorem rivals_take_turns :
    ∃ run, (start Graph.rivals 1 .empty .empty false false false none).steps? rivalSteps =
      some run ∧ History.stateOf run.scene.events "right" = .running ∧
        run.scene.gate.holds "right" = true ∧
        (∃ runner, run.find? "left" = some runner ∧
          runner.phase = .resting runner.task.backoff) ∧
        run.scene.gate.holds "left" = false ∧
        (run.runners.countP fun runner => runner.phase = .attempting) ≤ 1 := by
  obtain ⟨run, reached, running, runner, found, resting⟩ :
      ∃ run, (start Graph.rivals 1 .empty .empty false false false none).steps? rivalSteps =
        some run ∧ History.stateOf run.scene.events "right" = .running ∧
          ∃ runner, run.find? "left" = some runner ∧
            runner.phase = .resting runner.task.backoff :=
    ⟨_, rfl, rfl, _, rfl, rfl⟩
  have restores : KeyMap.RestoresCleared .empty := fun _ _ known => by cases known
  obtain ⟨_, attempting, held, idle, _⟩ :=
    running_within_limit Graph.rivals_accepted restores Nat.one_pos reached
  exact ⟨run, reached, running, held "right" running, ⟨runner, found, resting⟩,
    idle "left" runner found (Or.inr (Or.inl ⟨_, resting⟩)), attempting⟩

end Run

end JobGraph
