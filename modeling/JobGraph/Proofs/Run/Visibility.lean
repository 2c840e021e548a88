import JobGraph.Proofs.Run.Merges
import Mathlib.Logic.Relation

/-!
# What an attempt sees

An attempt is given the store as it is at its launch.  At that moment all tasks that its task
depends on, directly or through others, have ended: nothing more comes back from them, and what came
back is merged.  So the attempt sees everything that these tasks write in the run, and what the
earlier attempts at its own task wrote.

A task that was taken over from an earlier run counts as ended from the start, whatever has become
of its own dependencies in this run.  This is why such tasks have to depend only on such tasks.
-/

namespace JobGraph

/-- The task of the first name lists the second one as a dependency. -/
def Graph.DependsOn (graph : Graph) (name dependency : String) : Prop :=
  ∃ task ∈ graph.tasks, task.name = name ∧ dependency ∈ task.dependsOn

/-- Whether a task is taken over from an earlier run. -/
def KeyMap.Restores (seeds : KeyMap Seed) (name : String) : Prop :=
  ∃ state, Run.seedOf seeds name = .restored state

theorem KeyMap.restores_iff {seeds : KeyMap Seed} {name : String} :
    seeds.Restores name ↔ ∃ state, seeds.find? name = some (.restored state) := by
  rw [Restores]
  cases known : seeds.find? name with
  | none => simp [Run.seedOf, known]
  | some seed => simp [Run.seedOf, known]

/-- The tasks that are taken over depend only on such tasks. -/
def KeyMap.RestoresClosed (seeds : KeyMap Seed) (graph : Graph) : Prop :=
  ∀ name dependency, graph.DependsOn name dependency → seeds.Restores name →
    seeds.Restores dependency

namespace Run

variable {graph : Graph} {seeds : KeyMap Seed} {run next last : Run} {ledger : Ledger} {step : Step}
  {steps : List Step} {name : String}

/-- The task lets others run: it was taken over, or has ended well. -/
def Lets (seeds : KeyMap Seed) (run : Run) (name : String) : Prop :=
  seeds.Restores name ∨ run.Cleared name

theorem Lets.mono (keeps : run.Keeps next) (lets : run.Lets seeds name) : next.Lets seeds name :=
  lets.imp id keeps.cleared

/-- A task that lets others run makes no more attempts. -/
theorem Orderly.idle_of_lets (orderly : Orderly graph seeds run) (lets : run.Lets seeds name)
    {runner : Runner} (found : run.find? name = some runner) :
    runner.phase ≠ .attempting ∧ ∀ result, runner.phase ≠ .reported result := by
  have fits := orderly.fits found
  have notRunning : runner.IsFresh → runner.state ≠ .running := by
    intro fresh running
    rcases lets with ⟨state, restored⟩ | ⟨other, otherFound, clears⟩
    · exact fresh.not_restored ⟨state, (orderly.staffed found).2.trans restored⟩
    · cases found.symm.trans otherFound
      rw [running] at clears
      rcases clears with same | same
      · cases same
      · cases same
  refine ⟨?_, ?_⟩
  · intro phase
    simp only [Runner.Fits, phase] at fits
    exact notRunning fits.1 fits.2.1
  · intro result phase
    simp only [Runner.Fits, phase] at fits
    exact notRunning fits.1 fits.2.1

/-! ## What came back of a task that has ended -/

theorem Orderly.returnedOf_eq (orderly : Orderly graph seeds run) (lets : run.Lets seeds name)
    (ledger : Ledger) (change : run.Change step next) :
    (run.note ledger step).returnedOf name = ledger.returnedOf name := by
  cases change with
  | act found act =>
      rename_i before runner scene
      by_cases here : name = before.name
      · subst here
        rcases note_cases ledger found act with ⟨_, phase, _⟩ | ⟨_, _, returns, _⟩ |
          ⟨_, _, returns, _⟩
        · exact absurd phase (orderly.idle_of_lets lets found).1
        · exact Ledger.returnedOf_congr returns
        · exact Ledger.returnedOf_congr returns
      · exact (Tallied.elsewhere ledger found act here).1
  | line | cancel | aggregate => rfl
  | aside _ _ _ aside => exact Ledger.returnedOf_congr (note_of_aside run ledger aside).2

/-- Nothing more comes back of a task that lets others run. -/
theorem Orderly.returnedOf_ledgerAfter (orderly : Orderly graph seeds run)
    (lets : run.Lets seeds name) (taken : run.steps? steps = some last) :
    (run.ledgerAfter ledger steps).returnedOf name = ledger.returnedOf name := by
  have kept : Orderly graph seeds last ∧ last.Lets seeds name ∧
      (run.ledgerAfter ledger steps).returnedOf name = ledger.returnedOf name := by
    refine ledgerAfter_invariant (P := fun run after => Orderly graph seeds run ∧
      run.Lets seeds name ∧ after.returnedOf name = ledger.returnedOf name)
      taken ⟨orderly, lets, rfl⟩ ?_
    rintro run next after step ⟨orderly, lets, same⟩ change
    exact ⟨orderly.change change, lets.mono (orderly.keeps change),
      (orderly.returnedOf_eq lets after change).trans same⟩
  exact kept.2.2

/-- What came back of a task that lets others run is merged. -/
theorem Audited.mergedOf_eq {store : Store} (audited : Audited graph seeds store run ledger)
    (lets : run.Lets seeds name) : ledger.mergedOf name = ledger.returnedOf name := by
  have nothing : run.unmerged name = [] := by
    rw [unmerged]
    cases found : run.find? name with
    | none => rfl
    | some runner =>
        have idle := (audited.orderly.idle_of_lets lets found).2
        exact Runner.unmerged_eq_nil fun report => idle (.report report)
  rw [audited.returnedOf_eq, nothing, List.append_nil]

end Run

/-! ## Who goes past its dependencies -/

namespace Runner

/-- Whether the runner has gone past its dependencies, and found that they let its task run. -/
def isPast (runner : Runner) : Bool :=
  match runner.phase with
  | .ready | .arrived | .waiting _ _ => false
  | .asking | .queued | .launching | .attempting | .reported _ | .pausing | .resting _ => true
  | .announcing target next | .publishing target next =>
    next = .launch || next = .pause || target = .completed || target = .skip
  | .leaving | .gone => runner.state = .completed || runner.state = .skip

/-- The dependencies that the runner found to let its task run do so. -/
structure Admitted (seeds : KeyMap Seed) (run : Run) (runner : Runner) : Prop where
  past : ¬runner.IsRestored → runner.isPast = true →
    ∀ dependency ∈ runner.task.dependsOn, run.Lets seeds dependency
  heard : ∀ rest, runner.phase = .waiting rest true →
    ∃ heard, runner.task.dependsOn = heard ++ rest ∧
      ∀ dependency ∈ heard, run.Lets seeds dependency

variable {handle? : String → Option Handle} {runner next : Runner} {scene after : Scene}
  {step : Step}

theorem Act.isPast_cases (act : runner.Act handle? scene step next after)
    (notRestored : ¬runner.IsRestored) (past : next.isPast = true) :
    runner.isPast = true ∨ runner.phase = .waiting [] true := by
  cases act with
  | restore _ seed => exact absurd ⟨_, seed⟩ notRestored
  | skip phase | clear phase => exact Or.inr phase
  | start | stop | arrive | hear | miss | giveUp | withdraw | obey => cases past
  | publish phase =>
      rename_i target further
      left
      cases further with
      | wait => cases past
      | launch | pause => simp [isPast, phase]
      | leave => simpa [isPast, phase, Next.phase] using past
  | announce phase =>
      left
      simpa [isPast, phase] using past
  | leave phase =>
      left
      simpa [isPast, phase] using past
  | pass phase | queue phase | enter phase | launch phase | finish phase | succeed phase
  | exhaust phase | retry phase | fail phase | release phase | wake phase =>
      left
      simp only [isPast, phase]

variable {seeds : KeyMap Seed} {run later : Run}

theorem Admitted.mono (keeps : run.Keeps later) (admitted : runner.Admitted seeds run) :
    runner.Admitted seeds later := by
  refine ⟨?_, ?_⟩
  · intro notRestored past dependency depends
    exact (admitted.past notRestored past dependency depends).mono keeps
  · intro rest phase
    obtain ⟨heard, split, lets⟩ := admitted.heard rest phase
    exact ⟨heard, split, fun dependency member => (lets dependency member).mono keeps⟩

theorem Admitted.act (admitted : runner.Admitted seeds run)
    (settles : ∀ {name handle state}, run.handle? name = some handle →
      handle.settled? = some state → state.blocksDependents = false → run.Lets seeds name)
    (act : runner.Act run.handle? run.scene step next after) : next.Admitted seeds run := by
  refine ⟨?_, ?_⟩
  · intro notRestored past dependency depends
    have notBefore : ¬runner.IsRestored := fun ⟨state, seed⟩ =>
      notRestored ⟨state, act.seed.trans seed⟩
    rw [act.task] at depends
    rcases act.isPast_cases notBefore past with before | waited
    · exact admitted.past notBefore before dependency depends
    · obtain ⟨heard, split, lets⟩ := admitted.heard [] waited
      rw [split, List.append_nil] at depends
      exact lets dependency depends
  · intro rest phase
    cases act with
    | arrive =>
        cases phase
        exact ⟨[], rfl, fun dependency member => by cases member⟩
    | hear waits known settled turn =>
        rename_i dependency others good handle state
        injection phase with same both
        cases same
        have parts := Bool.and_eq_true_iff.1 both
        have notBlocking : state.blocksDependents = false := by simpa using parts.2
        obtain ⟨heard, split, lets⟩ := admitted.heard _ (parts.1 ▸ waits)
        refine ⟨heard ++ [dependency], ?_, ?_⟩
        · rw [List.append_assoc, List.singleton_append]
          exact split
        · intro other member
          rcases List.mem_append.1 member with earlier | isLast
          · exact lets other earlier
          · exact List.mem_singleton.1 isLast ▸ settles known settled notBlocking
    | publish here =>
        rename_i target further
        cases further <;> cases phase
    | _ => cases phase

end Runner

namespace Run

variable {graph : Graph} {seeds : KeyMap Seed} {run next first : Run} {step : Step}
  {steps : List Step} {name : String}

theorem Orderly.lets_of_settled (orderly : Orderly graph seeds run) {handle : Handle}
    {state : TaskState} (known : run.handle? name = some handle)
    (settled : handle.settled? = some state) (notBlocking : state.blocksDependents = false) :
    run.Lets seeds name := by
  obtain ⟨runner, found, rfl⟩ := Option.map_eq_some_iff.1 known
  by_cases restored : seeds.Restores name
  · exact Or.inl restored
  have notRestored : ¬runner.IsRestored := fun ⟨state, seed⟩ =>
    restored ⟨state, (orderly.staffed found).2.symm.trans seed⟩
  rw [Handle.settled?] at settled
  split at settled
  next closed =>
    cases settled
    have ended : runner.state.isTerminal = true := by
      rcases Bool.or_eq_true_iff.1 closed with ended | gone
      · exact ended
      · have fits := orderly.fits found
        have phase : runner.phase = .gone := of_decide_eq_true gone
        simp only [Runner.Fits, phase] at fits
        exact fits.2.1 notRestored
    exact Or.inr ⟨runner, found, TaskState.clears_of_not_blocks ended notBlocking⟩
  next => cases settled

/-- Every runner that has gone past its dependencies was let. -/
def Heedful (seeds : KeyMap Seed) (run : Run) : Prop :=
  ∀ name runner, run.find? name = some runner → runner.Admitted seeds run

theorem Heedful.start {limit : Nat} {store : Store} {cancelled keeps saves : Bool}
    {slot : Option Snapshot} :
    Heedful seeds (start graph limit seeds store cancelled keeps saves slot) := by
  intro name runner found
  obtain ⟨task, _, same⟩ := List.mem_map.1 (mem_of_find? found)
  cases same
  exact ⟨fun _ past => (by cases past), fun _ phase => (by cases phase)⟩

theorem Heedful.change (heedful : Heedful seeds run) (orderly : Orderly graph seeds run)
    (change : run.Change step next) : Heedful seeds next := by
  have keeps := orderly.keeps change
  cases change with
  | act found act =>
      intro name other otherFound
      rcases found_act found act.name otherFound with ⟨_, rfl⟩ | ⟨_, earlier⟩
      · exact ((heedful _ _ found).act orderly.lets_of_settled act).mono keeps
      · exact (heedful name other earlier).mono keeps
  | line | cancel | aggregate =>
      intro name other otherFound
      exact (heedful name other otherFound).mono keeps
  | aside runners =>
      intro name other otherFound
      exact (heedful name other (find?_of_runners runners ▸ otherFound)).mono keeps

/-! ## The moment of a launch -/

/-- What a task that lets others run depends on lets others run too. -/
theorem Heedful.lets_of_dependsOn (heedful : Heedful seeds run) (orderly : Orderly graph seeds run)
    (sound : graph.Sound) (closed : seeds.RestoresClosed graph) (lets : run.Lets seeds name)
    {dependency : String} (depends : graph.DependsOn name dependency) :
    run.Lets seeds dependency := by
  by_cases restored : seeds.Restores name
  · exact Or.inl (closed name dependency depends restored)
  obtain ⟨runner, found, clears⟩ := lets.resolve_left restored
  obtain ⟨task, member, same, listed⟩ := depends
  have notRestored : ¬runner.IsRestored := fun ⟨state, seed⟩ =>
    restored ⟨state, (orderly.staffed found).2.symm.trans seed⟩
  have past : runner.isPast = true := by
    rcases (orderly.fits found).ended_of_terminal clears.isTerminal with phase | phase
    · simpa [Runner.isPast, phase, TaskState.Clears] using clears
    · simpa [Runner.isPast, phase, TaskState.Clears] using clears
  have isTask : runner.task = task := orderly.task_eq sound member (same.symm ▸ found)
  exact (heedful name runner found).past notRestored past dependency (isTask ▸ listed)

/-- When an attempt is launched, everything that its task depends on lets others run. -/
theorem Heedful.lets_of_launching (heedful : Heedful seeds run) (orderly : Orderly graph seeds run)
    (sound : graph.Sound) (closed : seeds.RestoresClosed graph) {runner : Runner}
    (found : run.find? name = some runner) (phase : runner.phase = .launching) {upstream : String}
    (path : Relation.TransGen graph.DependsOn name upstream) : run.Lets seeds upstream := by
  have fresh : runner.IsFresh := by
    have fits := orderly.fits found
    simp only [Runner.Fits, phase] at fits
    exact fits.1
  have past : runner.isPast = true := by simp only [Runner.isPast, phase]
  induction path with
  | single depends =>
      obtain ⟨task, member, same, listed⟩ := depends
      have isTask : runner.task = task := orderly.task_eq sound member (same.symm ▸ found)
      exact (heedful name runner found).past fresh.not_restored past _ (isTask ▸ listed)
  | tail _ depends inductionHypothesis =>
      exact heedful.lets_of_dependsOn orderly sound closed inductionHypothesis depends

theorem Change.launched_cases (change : run.Change step next) :
    next.scene.launches = run.scene.launches ∨
      ∃ runner, step = .runner runner.name ∧ run.find? runner.name = some runner ∧
        runner.phase = .launching ∧
        next.scene.launches = run.scene.launches ++ [runner.request run.scene.store] := by
  cases change with
  | act found act =>
      cases act with
      | launch phase => exact Or.inr ⟨_, rfl, found, phase, rfl⟩
      | _ => exact Or.inl rfl
  | line | cancel | aggregate => exact Or.inl rfl
  | aside _ scene => exact Or.inl (congrArg Scene.launches scene)

/-- Every attempt that was launched has its step among those of the run. -/
theorem exists_launch (early : first.scene.launches = []) (taken : first.steps? steps = some run)
    {index : Nat} {request : Request} (there : run.scene.launches[index]? = some request) :
    ∃ front back before runner, steps = front ++ .runner request.name :: back ∧
      first.steps? front = some before ∧
      before.scene.launches = run.scene.launches.take index ∧
      before.find? request.name = some runner ∧ runner.phase = .launching ∧
      request = runner.request before.scene.store := by
  induction steps using List.reverseRecOn generalizing run with
  | nil =>
      cases taken
      rw [early] at there
      cases there
  | append_singleton earlier step inductionHypothesis =>
      obtain ⟨middle, reached, stepped⟩ := exists_of_steps?_concat taken
      -- An attempt that was launched before the last step was launched by one of the others.
      have before : middle.scene.launches[index]? = some request →
          run.scene.launches.take index = middle.scene.launches.take index →
          ∃ front back before runner, earlier ++ [step] = front ++ .runner request.name :: back ∧
            first.steps? front = some before ∧
            before.scene.launches = run.scene.launches.take index ∧
            before.find? request.name = some runner ∧ runner.phase = .launching ∧
            request = runner.request before.scene.store := by
        intro inside same
        obtain ⟨front, back, before, runner, split, rest⟩ := inductionHypothesis reached inside
        refine ⟨front, back ++ [step], before, runner, ?_, same ▸ rest⟩
        rw [split, List.append_assoc, List.cons_append]
      rcases (change_of_step? stepped).launched_cases with same | ⟨runner, rfl, found, phase, more⟩
      · exact before (same ▸ there) (by rw [same])
      · rw [more] at there
        rcases History.getElem?_concat_cases there with ⟨inside, earlierThere⟩ | ⟨isLast, rfl⟩
        · refine before earlierThere ?_
          rw [more, List.take_append_of_le_length (Nat.le_of_lt inside)]
        · refine ⟨earlier, [], middle, runner, rfl, reached, ?_, found, phase, rfl⟩
          rw [more, isLast, List.take_left]

theorem Heedful.of_steps? (graph : Graph) {limit : Nat} {store : Store}
    {cancelled keeps saves : Bool}
    {slot : Option Snapshot}
    (taken : (Run.start graph limit seeds store cancelled keeps saves slot).steps? steps =
      some run) : Heedful seeds run :=
  Orderly.invariant taken Heedful.start fun orderly heedful change => heedful.change orderly change

theorem Audited.exists_return {store : Store} {ledger : Ledger}
    (audited : Audited graph seeds store run ledger) {runner : Runner}
    (found : run.find? name = some runner) (phase : runner.phase = .launching) {request : Request}
    (launched : request ∈ run.callsOf name) :
    ∃ attempt ∈ ledger.returns, attempt.merge.task = name ∧
      attempt.merge.attempt = request.attempt ∧ attempt.merge ∈ ledger.merges := by
  have tally := audited.tallied.known found
  obtain ⟨count, counted, hasMerged⟩ := tally.merged
  have same : runner.calls = count := by
    simp only [Runner.HasMerged, phase] at hasMerged
    simp only [Runner.calls, phase, Phase.isStarting, Bool.or_true, if_true]
    omega
  have numbered : request.attempt ∈ (ledger.mergedOf name).map Merge.attempt := by
    rw [counted, ← same, ← tally.launched]
    exact List.mem_map_of_mem launched
  obtain ⟨merge, merged, number⟩ := List.mem_map.1 numbered
  have returned : merge ∈ ledger.returnedOf name := by
    rw [tally.returned]
    exact List.mem_append_left _ merged
  obtain ⟨inReturns, task⟩ := List.mem_filter.1 returned
  obtain ⟨attempt, member, rfl⟩ := List.mem_map.1 inReturns
  exact ⟨attempt, member, of_decide_eq_true task, number, (List.mem_filter.1 merged).1⟩

theorem prefix_ledgerAfter {ledger : Ledger} (taken : run.steps? steps = some next) :
    ledger.returns <+: (run.ledgerAfter ledger steps).returns ∧
      ledger.merges <+: (run.ledgerAfter ledger steps).merges := by
  refine ledgerAfter_invariant (P := fun _ after => ledger.returns <+: after.returns ∧
    ledger.merges <+: after.merges) taken ⟨List.prefix_refl _, List.prefix_refl _⟩ ?_
  rintro run next after step ⟨returned, merged⟩ _
  obtain ⟨more, further⟩ := prefix_note run after step
  exact ⟨returned.trans more, merged.trans further⟩

/-- At every moment of a run its store holds under each key what the last write to it in the merges
so far has left, and every attempt that came back is merged once, as a whole.  An attempt is given
the store as it is at its launch, with the writes of all merges up to then: among these merges are
all earlier attempts at its task and, if tasks that were taken over depend only on such tasks, all
attempts that ever come back in the run from the tasks it depends on. -/
theorem attempts_see_what_they_depend_on {tasks : List Task}
    (accepted : Graph.ofTasks tasks = .ok graph) {limit : Nat} {store : Store}
    {cancelled keeps saves : Bool} {slot : Option Snapshot}
    (course : (start graph limit seeds store cancelled keeps saves slot).steps? steps = some run)
    {ledger : Ledger}
    (told : (start graph limit seeds store cancelled keeps saves slot).ledgerAfter .empty steps =
      ledger) :
    Replayed store run ledger ∧
    ∀ (index : Nat) (request : Request), run.scene.launches[index]? = some request →
      ∃ front back before merges, steps = front ++ .runner request.name :: back ∧
        (start graph limit seeds store cancelled keeps saves slot).steps? front = some before ∧
        before.scene.launches = run.scene.launches.take index ∧
        ((start graph limit seeds store cancelled keeps saves slot).ledgerAfter .empty
          front).merges =
          merges ∧
        merges <+: ledger.merges ∧
        store.Becomes (Merge.allWrites merges) request.store ∧
        (∀ earlier ∈ before.scene.launches, earlier.name = request.name →
          ∃ attempt ∈ ledger.returns, attempt.merge.task = request.name ∧
            attempt.merge.attempt = earlier.attempt ∧ attempt.merge ∈ merges) ∧
        (seeds.RestoresClosed graph → ∀ attempt ∈ ledger.returns,
          Relation.TransGen graph.DependsOn request.name attempt.merge.task →
            attempt.merge ∈ merges) := by
  have sound := Graph.sound_of_ofTasks accepted
  subst told
  have whole : Audited graph seeds store run _ := Audited.steps? course
  refine ⟨whole.replayed, ?_⟩
  intro index request there
  obtain ⟨front, back, before, runner, split, reached, earlier, found, phase, same⟩ :=
    exists_launch rfl course there
  have audited : Audited graph seeds store before _ := Audited.steps? reached
  have further : before.steps? (.runner request.name :: back) = some run := by
    rw [split, steps?_append, reached, Option.bind_some] at course
    exact course
  rw [split, ledgerAfter_append reached]
  refine ⟨front, back, before, _, rfl, reached, earlier, rfl, (prefix_ledgerAfter further).2, ?_,
    ?_, ?_⟩
  · have given : request.store = before.scene.store := congrArg Request.store same
    exact given ▸ audited.accounts.stored
  · intro other launched sameName
    have call : other ∈ before.callsOf request.name :=
      List.mem_filter.2 ⟨launched, decide_eq_true sameName⟩
    obtain ⟨attempt, member, rest⟩ := audited.exists_return found phase call
    exact ⟨attempt, (prefix_ledgerAfter further).1.subset member, rest⟩
  · intro closed attempt member path
    have heedful : Heedful seeds before := Heedful.of_steps? graph reached
    have lets : before.Lets seeds attempt.merge.task :=
      heedful.lets_of_launching audited.orderly sound closed found phase path
    have inReturns : attempt.merge ∈ Ledger.returnedOf _ attempt.merge.task :=
      List.mem_filter.2 ⟨List.mem_map_of_mem member, decide_eq_true rfl⟩
    rw [audited.orderly.returnedOf_ledgerAfter lets further,
      ← audited.mergedOf_eq lets] at inReturns
    exact (List.mem_filter.1 inReturns).1

/-- The steps of two tasks in a row up to the launch of the second; the first writes a value. -/
def writtenPairSteps : List Step :=
  List.replicate 9 (.runner "first") ++
    [.ended "first" (.report ⟨false, false, [.set "answer" .null]⟩)] ++
      List.replicate 4 (.runner "first") ++ List.replicate 10 (.runner "second")

theorem second_of_pair_sees_first :
    ∃ run, (start Graph.pair 1 .empty .empty false false false none).steps? writtenPairSteps =
      some run ∧ run.scene.store.find? "answer" = some .null ∧
        ∃ request, run.scene.launches[1]? = some request ∧ request.name = "second" ∧
          request.store.find? "answer" = some .null := by
  obtain ⟨run, reached, request, there, name⟩ :
      ∃ run, (start Graph.pair 1 .empty .empty false false false none).steps? writtenPairSteps =
        some run ∧ ∃ request, run.scene.launches[1]? = some request ∧ request.name = "second" :=
    ⟨_, rfl, _, rfl, rfl⟩
  obtain ⟨ledger, told, returned, merged⟩ : ∃ ledger,
      (start Graph.pair 1 .empty .empty false false false none).ledgerAfter .empty
        writtenPairSteps = ledger ∧
      ledger.returns = [⟨⟨"first", 1, [.set "answer" .null]⟩, 2⟩] ∧
      ledger.merges = [⟨"first", 1, [.set "answer" .null]⟩] := ⟨_, rfl, rfl, rfl⟩
  have closed : KeyMap.RestoresClosed .empty Graph.pair := by
    rintro name dependency _ ⟨state, restored⟩
    cases restored
  have depends : Graph.pair.DependsOn request.name "first" :=
    ⟨⟨"second", "Sleep", ["first"], 1, .zero, .null⟩, by decide, name.symm, by decide⟩
  obtain ⟨replayed, launches⟩ :=
    attempts_see_what_they_depend_on Graph.pair_accepted reached told
  obtain ⟨_, _, _, merges, _, _, _, _, front, stored, _, upstream⟩ := launches 1 request there
  have among := upstream closed _ (returned ▸ List.mem_cons_self) (.single depends)
  -- The only merge of the run has come before the launch, so the store is the one after it.
  have whole : merges = [⟨"first", 1, [.set "answer" .null]⟩] := by
    rw [merged] at front
    exact front.eq_of_length_le (List.length_pos_of_mem among)
  have now := replayed.stored "answer"
  rw [merged] at now
  rw [whole] at stored
  exact ⟨run, reached, now, request, there, name, stored "answer"⟩

end Run

end JobGraph
