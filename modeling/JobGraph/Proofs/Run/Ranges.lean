import JobGraph.Proofs.Graph.Selections
import JobGraph.Proofs.Run.Resume
import JobGraph.Proofs.Run.Verdicts
import JobGraph.Proofs.Run.Visibility

/-!
# Ranges of a run

A run can be told to go only up to a task, or to start only at one.  What is run up to the task is
closed under dependencies, so nothing that is left out has a say in it: it ends as in a run of
everything, after as many attempts.  What is left out before the task is closed under dependencies
as well, so all of it is skipped, and a skipped task lets those depending on it run.
-/

namespace JobGraph

open Relation (ReflTransGen TransGen)
open JobGraph.Graph (Depends)

variable {graph : Graph} {kinds : String → Nat → AttemptKind} {target : String}

/-! ## What is left out -/

namespace Selection

variable {depends : String → String → Prop} {name : String}

theorem exists_skipped {selection : Selection} (sound : graph.Sound)
    (known : ∀ name ∈ selection.mentioned, name ∈ graph.names) :
    ∃ left, selection.skipped graph = .ok left ∧ ∀ name, name ∈ left ↔
      name ∈ graph.names ∧ selection.LeavesOut (Depends graph.tasks) name := by
  have resolved := skipped_of_known known
  exact ⟨_, resolved, fun name => mem_of_skipped sound resolved⟩

theorem leavesOut_upTo :
    LeavesOut ⟨[], some target, none⟩ depends name ↔ ¬ReflTransGen depends target name := by
  rw [Relation.reflTransGen_iff_eq_or_transGen, not_or]
  constructor
  · intro leaves
    cases leaves with
    | named listed => cases listed
    | beyond upTo other unreached =>
        cases upTo
        exact ⟨other, unreached⟩
    | before startingAt => cases startingAt
  · intro outside
    exact .beyond rfl outside.1 outside.2

theorem leavesOut_startingAt :
    LeavesOut ⟨[], none, some target⟩ depends name ↔ ¬ReflTransGen depends name target := by
  rw [Relation.reflTransGen_iff_eq_or_transGen, not_or]
  constructor
  · intro leaves
    cases leaves with
    | named listed => cases listed
    | beyond upTo => cases upTo
    | before startingAt other unreached =>
        cases startingAt
        exact ⟨Ne.symm other, unreached⟩
  · intro outside
    exact .before rfl (Ne.symm outside.1) outside.2

end Selection

/-! ## What is foreseen -/

namespace Graph

/-- Where tasks start out alike, and so do all that they depend on, the same is foreseen. -/
theorem forecast_congr {seeds others : KeyMap Seed} (sound : graph.Sound) {kept : String → Prop}
    (closed : ∀ {name dependency}, Depends graph.tasks name dependency → kept name →
      kept dependency)
    (alike : ∀ name, kept name → Run.seedOf seeds name = Run.seedOf others name) :
    ∀ name ∈ graph.names, kept name →
      (graph.forecast seeds kinds).find? name = (graph.forecast others kinds).find? name := by
  refine sound.induct (P := fun name => kept name →
    (graph.forecast seeds kinds).find? name = (graph.forecast others kinds).find? name) ?_
  intro task member inductionHypothesis here
  have same : ∀ dependency ∈ task.dependsOn,
      (graph.forecast seeds kinds).find? dependency =
        (graph.forecast others kinds).find? dependency :=
    fun dependency depends =>
      inductionHypothesis dependency depends (closed ⟨task, member, rfl, depends⟩ here)
  rw [forecast_eq sound member, forecast_eq sound member, Task.foretell_congr same]
  simp only [Task.foretell, alike task.name here]

/-- Where tasks are skipped, and so are all that they depend on, nothing else is foreseen. -/
theorem forecast_eq_skip {seeds : KeyMap Seed} (sound : graph.Sound) {left : String → Prop}
    (closed : ∀ {name dependency}, Depends graph.tasks name dependency → left name →
      left dependency)
    (skips : ∀ name ∈ graph.names, left name → Run.seedOf seeds name = .skip) :
    ∀ name ∈ graph.names, left name → (graph.forecast seeds kinds).find? name = some .skip := by
  refine sound.induct
    (P := fun name => left name → (graph.forecast seeds kinds).find? name = some .skip) ?_
  intro task member inductionHypothesis here
  have lets : ∀ dependency ∈ task.dependsOn, ∃ state,
      (graph.forecast seeds kinds).find? dependency = some state ∧
        state.blocksDependents = false :=
    fun dependency depends => ⟨.skip,
      inductionHypothesis dependency depends (closed ⟨task, member, rfl, depends⟩ here), rfl⟩
  rw [forecast_eq sound member, Task.foretell_of_cleared lets,
    skips task.name (List.mem_map_of_mem member) here]

end Graph

namespace Run

variable {seeds : KeyMap Seed} {run : Run}

theorem seedOf_skipped (left : NameSet) (name : String) :
    seedOf (KeyMap.empty.overlaySkipped left) name =
      if name ∈ left then .skip else .fresh false :=
  seedOf_overlaySkipped .empty left name

/-! ## What is done in a settled run -/

namespace Uninterrupted

theorem decided (uninterrupted : Uninterrupted graph seeds kinds run) (sound : graph.Sound) :
    Decided graph seeds kinds run := by
  obtain ⟨limit, store, keeps, saves, slot, steps, course⟩ := uninterrupted
  exact Decided.start.course sound course

theorem narrated (uninterrupted : Uninterrupted graph seeds kinds run)
    (restores : seeds.RestoresCleared) : Narrated run := by
  obtain ⟨limit, store, keeps, saves, slot, steps, course⟩ := uninterrupted
  exact Orderly.invariant course.reached Narrated.start fun orderly narrated change =>
    narrated.change orderly restores change

theorem launched_listed (uninterrupted : Uninterrupted graph seeds kinds run) :
    ∀ request ∈ run.scene.launches, request.name ∈ graph.names := by
  obtain ⟨limit, store, keeps, saves, slot, steps, course⟩ := uninterrupted
  refine Orderly.invariant
    (P := fun run => ∀ request ∈ run.scene.launches, request.name ∈ graph.names) course.reached
    (fun _ member => by cases member) ?_
  intro run next step orderly listed change request member
  rcases change.launched_cases with same | ⟨runner, _, found, _, more⟩
  · exact listed request (same ▸ member)
  · rw [more] at member
    rcases List.mem_append.1 member with earlier | last
    · exact listed request earlier
    · cases List.mem_singleton.1 last
      exact orderly.name_mem found

/-- When all tasks have ended, the runner of a task that takes part in the run claims what is
foreseen, and all attempts that it counts have been launched and led to it. -/
theorem exists_concluded (uninterrupted : Uninterrupted graph seeds kinds run)
    (sound : graph.Sound) (restores : seeds.RestoresCleared)
    (settled : run.aggregator.states.isSettled = true) {name : String}
    (listed : name ∈ graph.names) {isRestart : Bool}
    (fresh : seedOf seeds name = .fresh isRestart) :
    ∃ runner, run.find? name = some runner ∧
      (graph.forecast seeds kinds).find? name = some runner.claimed ∧
      runner.Concludes (kinds name) runner.claimed ∧
      (run.callsOf name).length = runner.attempts := by
  have lively := uninterrupted.lively sound restores
  have decided := uninterrupted.decided sound
  have orderly := decided.orderly
  obtain ⟨runner, found⟩ := orderly.exists_runner listed
  have fits := orderly.fits found
  have published := orderly.places.stateOf? listed
  have ended := (orderly.places.isSettled_iff sound.distinct).1 settled name listed
  have claimed := orderly.claimed_of_published found published ended
  rw [← claimed] at ended published
  rw [lively.regular.stateOf?_eq_forecast sound lively.going settled] at published
  have isFresh : runner.IsFresh := ⟨isRestart, (orderly.staffed found).2.trans fresh⟩
  have concludes := (decided.weighed name runner found).concludes fits isFresh ended
  refine ⟨runner, found, published, concludes, ?_⟩
  rw [(uninterrupted.narrated restores name runner found).calls]
  exact fits.calls_of_ended ended

end Uninterrupted

/-! ## Up to a task -/

/-- In two settled runs of which one leaves tasks out that the kept ones do not depend on, each kept
task ends alike. -/
theorem Uninterrupted.ends_alike {left : NameSet} {part whole : Run} (sound : graph.Sound)
    (cut : Uninterrupted graph (KeyMap.empty.overlaySkipped left) kinds part)
    (partSettled : part.aggregator.states.isSettled = true)
    (entire : Uninterrupted graph .empty kinds whole)
    (wholeSettled : whole.aggregator.states.isSettled = true) (kept : String → Prop)
    (closed : ∀ {name dependency}, Depends graph.tasks name dependency → kept name →
      kept dependency)
    (notLeft : ∀ name, kept name → name ∉ left) {name : String} (listed : name ∈ graph.names)
    (here : kept name) :
    part.aggregator.states.stateOf? name = whole.aggregator.states.stateOf? name ∧
      (part.find? name).map Runner.attempts = (whole.find? name).map Runner.attempts ∧
      (part.callsOf name).length = (whole.callsOf name).length := by
  have nothing : KeyMap.RestoresCleared .empty := fun _ _ known => by cases known
  have restores := nothing.overlaySkipped left
  have fresh : ∀ other, kept other →
      seedOf (KeyMap.empty.overlaySkipped left) other = .fresh false := by
    intro other keeps
    rw [seedOf_skipped, if_neg (notLeft other keeps)]
  -- Both runs end as is foreseen, and for what is kept the same is foreseen.
  have told : (graph.forecast (KeyMap.empty.overlaySkipped left) kinds).find? name =
      (graph.forecast .empty kinds).find? name :=
    Graph.forecast_congr sound closed fresh name listed here
  obtain ⟨runner, found, claimed, concludes, calls⟩ :=
    cut.exists_concluded sound restores partSettled listed (fresh name here)
  obtain ⟨other, otherFound, otherClaimed, otherConcludes, otherCalls⟩ :=
    entire.exists_concluded sound nothing wholeSettled listed rfl
  have partLively := cut.lively sound restores
  have wholeLively := entire.lively sound nothing
  have sameTask : other.task = runner.task := by
    cases name_of_find? found
    have member := (partLively.regular.orderly.staffed found).1
    exact wholeLively.regular.orderly.task_eq sound member otherFound
  have sameClaim : other.claimed = runner.claimed :=
    Option.some.inj (otherClaimed.symm.trans (told.symm.trans claimed))
  rw [sameClaim] at otherConcludes
  have sameAttempts := concludes.attempts_eq otherConcludes sameTask
  refine ⟨?_, ?_, ?_⟩
  · rw [partLively.regular.stateOf?_eq_forecast sound partLively.going partSettled,
      wholeLively.regular.stateOf?_eq_forecast sound wholeLively.going wholeSettled, told]
  · rw [found, otherFound, Option.map_some, Option.map_some, sameAttempts]
  · rw [calls, otherCalls, sameAttempts]

/-! ## From a task on -/

/-- In a settled run that leaves tasks out together with all that they depend on, these are skipped,
and a task that depends on nothing else is attempted. -/
theorem Uninterrupted.skips_before {left : NameSet} {part : Run} (sound : graph.Sound)
    (cut : Uninterrupted graph (KeyMap.empty.overlaySkipped left) kinds part)
    (settled : part.aggregator.states.isSettled = true) (before : String → Prop)
    (closed : ∀ {name dependency}, Depends graph.tasks name dependency → before name →
      before dependency)
    (skipped : ∀ name ∈ graph.names, before name → name ∈ left) :
    (∀ name ∈ graph.names, before name → part.aggregator.states.stateOf? name = some .skip) ∧
      ∀ name ∈ graph.names, name ∉ left →
        (∀ dependency, Depends graph.tasks name dependency → before dependency) →
          ∃ request ∈ part.scene.launches, request.name = name := by
  have nothing : KeyMap.RestoresCleared .empty := fun _ _ known => by cases known
  have restores := nothing.overlaySkipped left
  have lively := cut.lively sound restores
  have told : ∀ name ∈ graph.names, before name →
      (graph.forecast (KeyMap.empty.overlaySkipped left) kinds).find? name = some .skip := by
    refine Graph.forecast_eq_skip sound closed ?_
    intro name listed here
    rw [seedOf_skipped, if_pos (skipped name listed here)]
  refine ⟨?_, ?_⟩
  · intro name listed here
    rw [lively.regular.stateOf?_eq_forecast sound lively.going settled, told name listed here]
  · intro name listed kept lets
    have fresh : seedOf (KeyMap.empty.overlaySkipped left) name = .fresh false := by
      rw [seedOf_skipped, if_neg kept]
    obtain ⟨runner, found, claimed, concludes, calls⟩ :=
      cut.exists_concluded sound restores settled listed fresh
    obtain ⟨task, member, rfl⟩ := List.mem_map.1 listed
    have cleared : ∀ dependency ∈ task.dependsOn, ∃ state,
        (graph.forecast (KeyMap.empty.overlaySkipped left) kinds).find? dependency = some state ∧
          state.blocksDependents = false :=
      fun dependency depends => ⟨.skip, told dependency (sound.known task member dependency depends)
        (lets dependency ⟨task, member, rfl, depends⟩), rfl⟩
    -- Its attempts decide what becomes of the task, so it is not given up without any.
    rw [Graph.forecast_eq sound member, Task.foretell_of_cleared cleared, fresh,
      Option.some_inj] at claimed
    have some : 1 ≤ runner.attempts := by
      rcases concludes with ⟨defaulted, _⟩ | ⟨decides, _⟩
      · exact absurd (claimed.trans defaulted) (task.verdict_ne_defaulted _)
      · exact decides.positive
    rw [← calls] at some
    obtain ⟨request, called⟩ := List.exists_mem_of_length_pos some
    obtain ⟨launched, same⟩ := List.mem_filter.1 called
    exact ⟨request, launched, of_decide_eq_true same⟩

/-! ## Both -/

/-- A run up to a task launches nothing but that task and what it depends on, directly or through
others, and all of these end as they do when everything is run, after as many attempts.  A run that
starts at a task skips whatever does not depend on that task, directly or through others, and
launches the task. -/
theorem ranges_cut_runs {tasks : List Task} (accepted : Graph.ofTasks tasks = .ok graph)
    (listed : target ∈ graph.names) (kinds : String → Nat → AttemptKind) :
    (∃ left, Selection.skipped ⟨[], some target, none⟩ graph = .ok left ∧
      ∀ part, Uninterrupted graph (KeyMap.empty.overlaySkipped left) kinds part →
        part.Settles kinds ∧
        (∀ request ∈ part.scene.launches, ReflTransGen (Depends tasks) target request.name) ∧
        (part.aggregator.states.isSettled = true →
          ∀ whole, Uninterrupted graph .empty kinds whole →
            whole.aggregator.states.isSettled = true →
              ∀ name, ReflTransGen (Depends tasks) target name →
                part.aggregator.states.stateOf? name = whole.aggregator.states.stateOf? name ∧
                (part.find? name).map Runner.attempts = (whole.find? name).map Runner.attempts ∧
                (part.callsOf name).length = (whole.callsOf name).length)) ∧
    ∃ left, Selection.skipped ⟨[], none, some target⟩ graph = .ok left ∧
      ∀ part, Uninterrupted graph (KeyMap.empty.overlaySkipped left) kinds part →
        part.Settles kinds ∧
        (part.aggregator.states.isSettled = true →
          (∀ name ∈ graph.names, ¬ReflTransGen (Depends tasks) name target →
            part.aggregator.states.stateOf? name = some .skip) ∧
          ∃ request ∈ part.scene.launches, request.name = target) := by
  have sound := Graph.sound_of_ofTasks accepted
  have order := Graph.inNameOrder_of_ofTasks accepted
  rw [← Graph.depends_iff_of_perm order.perm]
  have nothing : KeyMap.RestoresCleared .empty := fun _ _ known => by cases known
  have mentions : ∀ selection : Selection, selection.mentioned = [target] →
      ∀ name ∈ selection.mentioned, name ∈ graph.names := by
    intro selection only name mentioned
    rw [only] at mentioned
    exact List.mem_singleton.1 mentioned ▸ listed
  refine ⟨?_, ?_⟩
  · obtain ⟨left, resolved, members⟩ := Selection.exists_skipped sound
      (mentions ⟨[], some target, none⟩ rfl)
    simp only [Selection.leavesOut_upTo] at members
    refine ⟨left, resolved, ?_⟩
    intro part cut
    have restores := nothing.overlaySkipped left
    refine ⟨(cut.lively sound restores).settles sound restores, ?_, ?_⟩
    · intro request member
      obtain ⟨isRestart, fresh⟩ := cut.launchesFresh request member
      by_contra beyond
      rw [seedOf_skipped,
        if_pos ((members request.name).2 ⟨cut.launched_listed request member, beyond⟩)] at fresh
      cases fresh
    · intro settled whole entire wholeSettled name reached
      have known : name ∈ graph.names := by
        rcases Relation.reflTransGen_iff_eq_or_transGen.1 reached with same | further
        · exact same ▸ listed
        · obtain ⟨_, _, depends⟩ := TransGen.tail'_iff.1 further
          exact sound.depends_known depends
      exact cut.ends_alike sound settled entire wholeSettled
        (ReflTransGen (Depends graph.tasks) target) (fun depends reached => reached.tail depends)
        (fun name reached leaves => ((members name).1 leaves).2 reached) known reached
  · obtain ⟨left, resolved, members⟩ := Selection.exists_skipped sound
      (mentions ⟨[], none, some target⟩ rfl)
    simp only [Selection.leavesOut_startingAt] at members
    refine ⟨left, resolved, ?_⟩
    intro part cut
    have restores := nothing.overlaySkipped left
    refine ⟨(cut.lively sound restores).settles sound restores, ?_⟩
    intro settled
    obtain ⟨skips, launches⟩ := cut.skips_before sound settled
      (fun name => ¬ReflTransGen (Depends graph.tasks) name target)
      (fun depends unreached reached => unreached (.head depends reached))
      (fun name known unreached => (members name).2 ⟨known, unreached⟩)
    refine ⟨skips, launches target listed ?_ ?_⟩
    · exact fun leaves => ((members target).1 leaves).2 .refl
    · -- A dependency of the target that depends on it would close a cycle.
      intro dependency depends reached
      exact sound.acyclic target (TransGen.head' depends reached)

/-- The steps of two tasks in a row, of which the second is skipped. -/
def upToFirstSteps : List Step :=
  firstOfPairSteps ++ List.replicate 9 (.runner "second") ++ List.replicate 2 .aggregator

/-- The steps of two tasks in a row, of which the first is skipped. -/
def fromSecondSteps : List Step :=
  List.replicate 8 (.runner "first") ++ [.aggregator] ++ secondOfPairSteps

theorem pair_is_cut :
    ∃ part rest whole,
      (start Graph.pair 1 (KeyMap.empty.overlaySkipped (.ofList ["second"])) .empty false false
        false none).steps? upToFirstSteps = some part ∧
      (start Graph.pair 1 (KeyMap.empty.overlaySkipped (.ofList ["first"])) .empty false false false
        none).steps? fromSecondSteps = some rest ∧
      (start Graph.pair 1 .empty .empty false false false none).steps?
        (firstOfPairSteps ++ secondOfPairSteps) = some whole ∧
      (∀ request ∈ part.scene.launches, request.name ≠ "second") ∧
      part.aggregator.states.stateOf? "first" = some .completed ∧
      (part.callsOf "first").length = (whole.callsOf "first").length ∧
      rest.aggregator.states.stateOf? "first" = some .skip ∧
      ∃ request ∈ rest.scene.launches, request.name = "second" := by
  obtain ⟨part, rest, whole, upTo, startingAt, everything, partSettled, restSettled, wholeSettled,
      ended⟩ :
    ∃ part rest whole,
      (start Graph.pair 1 (KeyMap.empty.overlaySkipped (.ofList ["second"])) .empty false false
        false none).steps? upToFirstSteps = some part ∧
      (start Graph.pair 1 (KeyMap.empty.overlaySkipped (.ofList ["first"])) .empty false false false
        none).steps? fromSecondSteps = some rest ∧
      (start Graph.pair 1 .empty .empty false false false none).steps?
        (firstOfPairSteps ++ secondOfPairSteps) = some whole ∧
      part.aggregator.states.isSettled = true ∧ rest.aggregator.states.isSettled = true ∧
      whole.aggregator.states.isSettled = true ∧
      whole.aggregator.states.stateOf? "first" = some .completed :=
    ⟨_, _, _, rfl, rfl, rfl, rfl, rfl, rfl, rfl⟩
  have undisturbed : ∀ step ∈ upToFirstSteps ++ fromSecondSteps, ∀ run : Run,
      run.Undisturbed (fun _ _ => .success) step := by
    simp [upToFirstSteps, fromSecondSteps, firstOfPairSteps, secondOfPairSteps, Undisturbed,
      AttemptResult.kind]
  have wholeFits : ∀ step ∈ firstOfPairSteps ++ secondOfPairSteps, ∀ run : Run,
      run.Undisturbed (fun _ _ => .success) step := by
    simp [firstOfPairSteps, secondOfPairSteps, Undisturbed, AttemptResult.kind]
  have apart : ¬ReflTransGen (Depends Graph.pairTasks) "first" "second" := by
    intro reached
    rcases reached.cases_head with same | ⟨middle, ⟨task, member, name, depends⟩, _⟩
    · exact absurd same (by decide)
    · rcases List.mem_cons.1 member with rfl | member
      · cases depends
      · cases List.mem_singleton.1 member
        exact absurd name (by decide)
  obtain ⟨⟨left, resolved, cut⟩, _⟩ := ranges_cut_runs Graph.pair_accepted
    (by decide : "first" ∈ Graph.pair.names) fun _ _ => .success
  obtain ⟨_, ⟨before, beforeResolved, later⟩⟩ := ranges_cut_runs Graph.pair_accepted
    (by decide : "second" ∈ Graph.pair.names) fun _ _ => .success
  have second : Selection.skipped ⟨[], some "first", none⟩ Graph.pair =
      .ok (.ofList ["second"]) := by cbv
  have first : Selection.skipped ⟨[], none, some "second"⟩ Graph.pair =
      .ok (.ofList ["first"]) := by cbv
  cases resolved.symm.trans second
  cases beforeResolved.symm.trans first
  have upToFits : ∀ step ∈ upToFirstSteps, ∀ run : Run,
      run.Undisturbed (fun _ _ => .success) step :=
    fun step member => undisturbed step (List.mem_append_left _ member)
  have startingFits : ∀ step ∈ fromSecondSteps, ∀ run : Run,
      run.Undisturbed (fun _ _ => .success) step :=
    fun step member => undisturbed step (List.mem_append_right _ member)
  obtain ⟨_, launched, alike⟩ :=
    cut part ⟨_, _, _, _, _, _, Course.of_steps? upTo upToFits⟩
  obtain ⟨state, _, calls⟩ := alike partSettled whole
    ⟨_, _, _, _, _, _, Course.of_steps? everything wholeFits⟩ wholeSettled "first" .refl
  obtain ⟨_, ends⟩ := later rest ⟨_, _, _, _, _, _, Course.of_steps? startingAt startingFits⟩
  obtain ⟨skips, launches⟩ := ends restSettled
  refine ⟨part, rest, whole, upTo, startingAt, everything, ?_, state.trans ended, calls,
    skips "first" (by decide) apart, launches⟩
  intro request member isSecond
  exact apart (isSecond ▸ launched request member)

end Run

end JobGraph
