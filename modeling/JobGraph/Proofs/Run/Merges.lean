import JobGraph.Proofs.Run.Ledger
import JobGraph.Proofs.Run.Lifecycle

/-!
# Every attempt is merged once

The attempts at a task are numbered as they are launched, and come back and are merged in that
order: what has come back of a task is what was merged of it, and perhaps one attempt more, which
its runner merges in its next step.  So no attempt is lost and none is merged twice.
-/

namespace JobGraph

namespace Ledger

/-- The attempts at a task that came back, one after the other. -/
def returnedOf (ledger : Ledger) (name : String) : List Merge :=
  (ledger.returns.map Return.merge).filter fun merge => merge.task = name

/-- The attempts at a task that were merged, one after the other. -/
def mergedOf (ledger : Ledger) (name : String) : List Merge :=
  ledger.merges.filter fun merge => merge.task = name

section Concatenation

variable {ledger after : Ledger} {merge : Merge} {name : String}

theorem returnedOf_congr (same : after.returns = ledger.returns) :
    after.returnedOf name = ledger.returnedOf name := by
  rw [returnedOf, returnedOf, same]

theorem mergedOf_congr (same : after.merges = ledger.merges) :
    after.mergedOf name = ledger.mergedOf name := by
  rw [mergedOf, mergedOf, same]

theorem returnedOf_concat
    (more : after.returns.map Return.merge = ledger.returns.map Return.merge ++ [merge]) :
    after.returnedOf name =
      ledger.returnedOf name ++ if merge.task = name then [merge] else [] := by
  rw [returnedOf, more, List.filter_append]
  by_cases same : merge.task = name <;> simp [same, returnedOf]

theorem mergedOf_concat (more : after.merges = ledger.merges ++ [merge]) :
    after.mergedOf name = ledger.mergedOf name ++ if merge.task = name then [merge] else [] := by
  rw [mergedOf, more, List.filter_append]
  by_cases same : merge.task = name <;> simp [same, mergedOf]

end Concatenation

end Ledger

/-- Which attempt at which task was merged. -/
def Merge.key (merge : Merge) : String × Nat := (merge.task, merge.attempt)

namespace Runner

@[simp]
theorem task_merge (runner : Runner) (report : Report) :
    (runner.merge report).task = runner.name := rfl

/-- The attempt that the runner merges in its next step, if there is one. -/
def unmerged (runner : Runner) : List Merge :=
  match runner.phase with
  | .reported (.report report) => [runner.merge report]
  | _ => []

/-- How many attempts have been merged, as far as the phase tells. -/
def HasMerged (runner : Runner) (count : Nat) : Prop :=
  match runner.phase with
  | .announcing _ .launch | .publishing _ .launch | .launching | .attempting | .reported _ =>
    count + 1 = runner.attempts
  | .announcing _ .leave | .publishing _ .leave | .leaving | .gone => True
  | _ => count = runner.attempts

/-- The attempts of a runner that were launched, came back and were merged. -/
structure Tally (runner : Runner) (launched : List Request)
    (returned merged : List Merge) : Prop where
  launched : launched.map Request.attempt = List.range' 1 runner.calls
  returned : returned = merged ++ runner.unmerged
  merged : ∃ count, merged.map Merge.attempt = List.range' 1 count ∧ runner.HasMerged count

variable {handle? : String → Option Handle} {runner next : Runner} {scene after : Scene}
  {step : Step} {launched : List Request} {returned merged : List Merge}

theorem Tally.ofTask (task : Task) (seed : Seed) : (ofTask task seed).Tally [] [] [] :=
  ⟨rfl, rfl, 0, rfl, rfl⟩

theorem Act.numbered (act : runner.Act handle? scene step next after) (fits : runner.Fits)
    (numbered : launched.map Request.attempt = List.range' 1 runner.calls) :
    (launched ++ runner.launched scene.store).map Request.attempt = List.range' 1 next.calls := by
  by_cases launching : runner.phase = .launching
  · cases act with
    | launch phase =>
        have some : 1 ≤ runner.attempts := by
          simp only [Fits, phase] at fits
          exact fits.2.2.1
        have before : runner.calls = runner.attempts - 1 := by
          simp only [calls, phase, Phase.isStarting, Bool.or_true, if_true]
        obtain ⟨earlier, count⟩ := Nat.exists_eq_add_of_le' some
        rw [before, count, Nat.add_sub_cancel] at numbered
        rw [Runner.launched, if_pos phase, List.map_append, numbered]
        change _ ++ [runner.attempts] = List.range' 1 runner.attempts
        rw [count, List.range'_1_concat, Nat.add_comm]
    | stop heeds => simp [Phase.heedsStop, launching] at heeds
    | _ phase => cases phase.symm.trans launching
  · have same : next.calls = runner.calls := by
      by_cases told : runner.phase.announced = []
      · exact (act.counts told launching).2
      · cases act with
        | announce phase => simp [calls, phase, Phase.isEntering, Phase.isStarting]
        | stop heeds =>
            cases phase : runner.phase with
            | announcing => simp [Phase.heedsStop, phase] at heeds
            | _ => simp [Phase.announced, phase] at told
        | _ phase => simp [Phase.announced, phase] at told
    rw [Runner.launched, if_neg launching, List.append_nil, same, numbered]

/-- The step in which a runner merges an attempt counts it. -/
theorem Act.hasMerged_succ (act : runner.Act handle? scene step next after) {report : Report}
    (phase : runner.phase = .reported (.report report)) {count : Nat}
    (hasMerged : runner.HasMerged count) : next.unmerged = [] ∧ next.HasMerged (count + 1) := by
  simp only [HasMerged, phase] at hasMerged
  cases act with
  | obey | succeed | exhaust => exact ⟨rfl, trivial⟩
  | retry => exact ⟨rfl, hasMerged⟩
  | stop heeds => simp [Phase.heedsStop, phase] at heeds
  | _ here => cases here.symm.trans phase

/-- A step that merges nothing counts nothing. -/
theorem Act.hasMerged_same (act : runner.Act handle? scene step next after)
    (phase : ∀ report, runner.phase ≠ .reported (.report report)) {count : Nat}
    (hasMerged : runner.HasMerged count) : next.HasMerged count := by
  cases act with
  | obey here | succeed here | exhaust here | retry here => exact absurd here (phase _)
  | restore | stop | giveUp | skip | withdraw | fail | leave => trivial
  | announce here =>
      rename_i target further
      simp only [HasMerged, here] at hasMerged
      cases further <;> exact hasMerged
  | publish here =>
      rename_i target further
      simp only [HasMerged, here] at hasMerged
      cases further <;> exact hasMerged
  | pass here | enter here =>
      simp only [HasMerged, here] at hasMerged
      exact congrArg Nat.succ hasMerged
  | start here | arrive here | hear here | miss here | clear here | queue here | launch here
  | finish here | release here | wake here =>
      simp only [HasMerged, here] at hasMerged
      exact hasMerged

/-- Only the end of an attempt makes a runner one that is about to merge it. -/
theorem Act.finish_of_reported (act : runner.Act handle? scene step next after) {report : Report}
    (phase : next.phase = .reported (.report report)) :
    runner.phase = .attempting ∧ step = .ended runner.name (.report report) := by
  cases act with
  | finish here =>
      cases phase
      exact ⟨here, rfl⟩
  | publish here =>
      rename_i target further
      cases further <;> cases phase
  | _ => cases phase

theorem unmerged_eq_nil (phase : ∀ report, runner.phase ≠ .reported (.report report)) :
    runner.unmerged = [] := by
  unfold unmerged
  split
  next report here => exact absurd here (phase report)
  next => rfl

end Runner

/-! ## The ledger of a run -/

namespace Run

variable {graph : Graph} {seeds : KeyMap Seed} {run next : Run} {ledger : Ledger} {step : Step}

/-- A step of a runner brings an attempt back, merges one, or does neither. -/
theorem note_cases (ledger : Ledger) {before runner : Runner} {scene : Scene}
    (found : run.find? before.name = some before)
    (act : before.Act run.handle? run.scene step runner scene) :
    (∃ report, before.phase = .attempting ∧
      runner = { before with phase := .reported (.report report) } ∧
      (run.note ledger step).returns.map Return.merge =
        ledger.returns.map Return.merge ++ [before.merge report] ∧
      (run.note ledger step).merges = ledger.merges) ∨
    (∃ report, before.phase = .reported (.report report) ∧
      (run.note ledger step).returns = ledger.returns ∧
      (run.note ledger step).merges = ledger.merges ++ [before.merge report]) ∨
    ((∀ report, before.phase ≠ .reported (.report report)) ∧
      (∀ report, runner.phase ≠ .reported (.report report)) ∧
      (run.note ledger step).returns = ledger.returns ∧
      (run.note ledger step).merges = ledger.merges) := by
  have noted := noted_of_act ledger found act
  generalize told : run.note ledger step = after at noted
  cases noted with
  | returned phase =>
      rename_i report
      exact Or.inl ⟨report, phase, rfl, by rw [List.map_append]; rfl, rfl⟩
  | merged phase events store =>
      rename_i report
      exact Or.inr (Or.inl ⟨report, phase, rfl, rfl⟩)
  | nothing _ phase =>
      refine Or.inr (Or.inr ⟨phase, ?_, rfl, rfl⟩)
      -- An attempt that comes back would have been noted.
      intro report reported
      obtain ⟨_, rfl⟩ := act.finish_of_reported reported
      have lengths := congrArg (fun ledger : Ledger => ledger.returns.length) told
      simp [note, found] at lengths

/-- What the ledger tells of every task is what its runner has done. -/
structure Tallied (run : Run) (ledger : Ledger) : Prop where
  known : ∀ {name runner}, run.find? name = some runner →
    runner.Tally (run.callsOf name) (ledger.returnedOf name) (ledger.mergedOf name)
  unknown : ∀ {name}, run.find? name = none →
    ledger.returnedOf name = [] ∧ ledger.mergedOf name = []

namespace Tallied

theorem start {limit : Nat} {store : Store} {cancelled keeps saves : Bool}
    {slot : Option Snapshot} :
    Tallied (start graph limit seeds store cancelled keeps saves slot) .empty := by
  refine ⟨?_, fun _ => ⟨rfl, rfl⟩⟩
  intro name runner found
  obtain ⟨task, _, same⟩ := List.mem_map.1 (mem_of_find? found)
  cases same
  exact Runner.Tally.ofTask task _

private theorem own {before runner : Runner} {scene : Scene} (tallied : Tallied run ledger)
    (orderly : Orderly graph seeds run) (found : run.find? before.name = some before)
    (act : before.Act run.handle? run.scene step runner scene) :
    runner.Tally (run.callsOf before.name ++ before.launched run.scene.store)
      ((run.note ledger step).returnedOf before.name)
      ((run.note ledger step).mergedOf before.name) := by
  have tally := tallied.known found
  have numbered := act.numbered (orderly.fits found) tally.launched
  obtain ⟨count, counted, hasMerged⟩ := tally.merged
  have returned := tally.returned
  rcases note_cases ledger found act with ⟨report, phase, same, returns, merges⟩ |
    ⟨report, phase, returns, merges⟩ | ⟨phase, quiet, returns, merges⟩
  · have notReported : ∀ report, before.phase ≠ .reported (.report report) :=
      fun report reported => by cases phase.symm.trans reported
    rw [Ledger.returnedOf_concat returns, Ledger.mergedOf_congr merges,
      Runner.task_merge, if_pos rfl]
    refine ⟨numbered, ?_, count, counted, act.hasMerged_same notReported hasMerged⟩
    rw [returned, Runner.unmerged_eq_nil notReported, List.append_nil, same]
    rfl
  · obtain ⟨quiet, further⟩ := act.hasMerged_succ phase hasMerged
    have last : before.attempts = count + 1 := by
      simp only [Runner.HasMerged, phase] at hasMerged
      exact hasMerged.symm
    rw [Ledger.returnedOf_congr returns, Ledger.mergedOf_concat merges,
      Runner.task_merge, if_pos rfl]
    refine ⟨numbered, ?_, count + 1, ?_, further⟩
    · rw [returned, quiet, List.append_nil, Runner.unmerged, phase]
    · rw [List.map_append, counted, List.range'_1_concat, Nat.add_comm 1 count, ← last]
      rfl
  · rw [Ledger.returnedOf_congr returns, Ledger.mergedOf_congr merges]
    refine ⟨numbered, ?_, count, counted, act.hasMerged_same phase hasMerged⟩
    rw [returned, Runner.unmerged_eq_nil phase, Runner.unmerged_eq_nil quiet]

theorem elsewhere {before runner : Runner} {scene : Scene} (ledger : Ledger)
    (found : run.find? before.name = some before)
    (act : before.Act run.handle? run.scene step runner scene) {name : String}
    (different : name ≠ before.name) :
    (run.note ledger step).returnedOf name = ledger.returnedOf name ∧
      (run.note ledger step).mergedOf name = ledger.mergedOf name := by
  have other : ¬before.name = name := Ne.symm different
  rcases note_cases ledger found act with ⟨report, _, _, returns, merges⟩ |
    ⟨report, _, returns, merges⟩ | ⟨_, _, returns, merges⟩
  · rw [Ledger.returnedOf_concat returns, Runner.task_merge, if_neg other, List.append_nil]
    exact ⟨rfl, Ledger.mergedOf_congr merges⟩
  · rw [Ledger.mergedOf_concat merges, Runner.task_merge, if_neg other, List.append_nil]
    exact ⟨Ledger.returnedOf_congr returns, rfl⟩
  · exact ⟨Ledger.returnedOf_congr returns, Ledger.mergedOf_congr merges⟩

private theorem act {before runner : Runner} {scene : Scene} (tallied : Tallied run ledger)
    (orderly : Orderly graph seeds run) (found : run.find? before.name = some before)
    (act : before.Act run.handle? run.scene step runner scene) :
    Tallied { run.put runner with scene } (run.note ledger step) := by
  refine ⟨?_, ?_⟩
  · intro name other otherFound
    rw [callsOf_act act name]
    rcases found_act found act.name otherFound with ⟨rfl, rfl⟩ | ⟨different, earlier⟩
    · rw [if_pos rfl]
      exact tallied.own orderly found act
    · obtain ⟨returned, merged⟩ := elsewhere ledger found act different
      rw [if_neg (Ne.symm different), List.append_nil, returned, merged]
      exact tallied.known earlier
  · intro name missing
    rw [find?_act found act.name scene] at missing
    by_cases here : name = before.name
    · rw [if_pos here] at missing
      cases missing
    · obtain ⟨returned, merged⟩ := elsewhere ledger found act here
      rw [if_neg here] at missing
      rw [returned, merged]
      exact tallied.unknown missing

theorem change (tallied : Tallied run ledger) (orderly : Orderly graph seeds run)
    (change : run.Change step next) : Tallied next (run.note ledger step) := by
  cases change with
  | act found act => exact tallied.act orderly found act
  | line | cancel | aggregate => exact ⟨tallied.known, tallied.unknown⟩
  | aside runners scene aggregator aside =>
      have look := find?_of_runners runners
      obtain ⟨merges, returns⟩ := note_of_aside run ledger aside
      refine ⟨?_, ?_⟩
      · intro name runner found
        rw [callsOf, scene, Ledger.returnedOf_congr returns, Ledger.mergedOf_congr merges]
        exact tallied.known (look ▸ found)
      · intro name missing
        rw [Ledger.returnedOf_congr returns, Ledger.mergedOf_congr merges]
        exact tallied.unknown (look ▸ missing)

end Tallied

/-! ## What follows -/

end Run

private theorem Runner.Tally.nodup {runner : Runner} {launched : List Request}
    {returned merged : List Merge} (tally : runner.Tally launched returned merged) :
    (returned.map Merge.attempt).Nodup := by
  obtain ⟨count, counted, hasMerged⟩ := tally.merged
  rw [tally.returned, List.map_append, counted]
  cases phase : runner.phase with
  | reported result =>
      cases result with
      | report report =>
          have last : [runner.attempts] = [1 + count] := by
            simp only [Runner.HasMerged, phase] at hasMerged
            rw [← hasMerged, Nat.add_comm]
          have pending : runner.unmerged.map Merge.attempt = [runner.attempts] := by
            rw [Runner.unmerged, phase]
            rfl
          rw [pending, last, ← List.range'_1_concat]
          exact List.nodup_range'
      | error =>
          rw [Runner.unmerged, phase, List.map_nil, List.append_nil]
          exact List.nodup_range'
  | _ =>
      rw [Runner.unmerged, phase, List.map_nil, List.append_nil]
      exact List.nodup_range'

/-- If the attempts at each task differ in their numbers, then all attempts differ in their keys. -/
theorem Merge.nodup_keys {merges : List Merge}
    (each : ∀ name, ((merges.filter fun merge => merge.task = name).map Merge.attempt).Nodup) :
    (merges.map Merge.key).Nodup := by
  rw [List.Nodup, List.pairwise_map, List.pairwise_iff_getElem]
  intro first second inside alsoInside below same
  have numbers := each merges[first].task
  rw [List.Nodup, List.pairwise_map, List.pairwise_filter, List.pairwise_iff_getElem] at numbers
  have parts := Prod.mk.inj same
  exact numbers first second inside alsoInside below (decide_eq_true rfl)
    (decide_eq_true parts.1.symm) parts.2

namespace Run

variable {graph : Graph} {seeds : KeyMap Seed} {store : Store} {run next : Run} {ledger : Ledger}
  {step : Step} {steps : List Step}

/-- The attempt at a task that came back and waits to be merged. -/
def unmerged (run : Run) (name : String) : List Merge :=
  ((run.find? name).map Runner.unmerged).getD []

/-- A run with its ledger, which tells what came back, what was merged and what the store holds. -/
structure Audited (graph : Graph) (seeds : KeyMap Seed) (store : Store) (run : Run)
    (ledger : Ledger) : Prop where
  orderly : Orderly graph seeds run
  accounts : Accounts store run ledger
  tallied : Tallied run ledger

namespace Audited

theorem steps? {limit : Nat} {cancelled keeps saves : Bool} {slot : Option Snapshot}
    (taken : (start graph limit seeds store cancelled keeps saves slot).steps? steps = some run) :
    Audited graph seeds store run
      ((start graph limit seeds store cancelled keeps saves slot).ledgerAfter .empty steps) := by
  refine ledgerAfter_invariant taken ⟨Orderly.start, Accounts.start, Tallied.start⟩ ?_
  rintro run next ledger step ⟨orderly, accounts, tallied⟩ change
  exact ⟨orderly.change change, accounts.change orderly change, tallied.change orderly change⟩

variable (audited : Audited graph seeds store run ledger)

include audited

/-- Of each task, what came back is what was merged and what its runner is about to merge. -/
theorem returnedOf_eq (name : String) :
    ledger.returnedOf name = ledger.mergedOf name ++ run.unmerged name := by
  cases found : run.find? name with
  | some runner =>
      rw [unmerged, found]
      exact (audited.tallied.known found).returned
  | none =>
      obtain ⟨returned, merged⟩ := audited.tallied.unknown found
      rw [unmerged, found, returned, merged]
      rfl

theorem returns_nodup : ((ledger.returns.map Return.merge).map Merge.key).Nodup := by
  apply Merge.nodup_keys
  intro name
  change ((ledger.returnedOf name).map Merge.attempt).Nodup
  cases found : run.find? name with
  | some runner => exact (audited.tallied.known found).nodup
  | none =>
      rw [(audited.tallied.unknown found).1]
      exact List.nodup_nil

theorem count_returns (merge : Merge) : (ledger.returns.map Return.merge).count merge =
    ledger.merges.count merge + (run.unmerged merge.task).count merge := by
  have own : ∀ merges : List Merge,
      (merges.filter fun other => other.task = merge.task).count merge = merges.count merge :=
    fun merges => List.count_filter (decide_eq_true rfl)
  have split := congrArg (List.count merge) (audited.returnedOf_eq merge.task)
  rwa [List.count_append, Ledger.returnedOf, Ledger.mergedOf, own, own] at split

end Audited

/-- A runner that has an attempt to merge can do so at once, whether or not it was told to stop, and
merges the whole of it. -/
theorem merge_unmerged (ledger : Ledger) {name : String} {merge : Merge}
    (waits : merge ∈ run.unmerged name) :
    ∃ next, run.step? (.runner name) = some next ∧
      run.scene.store.Becomes merge.writes next.scene.store ∧
      (run.note ledger (.runner name)).merges = ledger.merges ++ [merge] := by
  cases found : run.find? name with
  | none =>
      rw [unmerged, found] at waits
      cases waits
  | some runner =>
      rw [unmerged, found, Option.map_some, Option.getD_some, Runner.unmerged] at waits
      split at waits
      next report phase =>
        cases List.mem_singleton.1 waits
        have stepped : runner.step? run.handle? run.scene = some (runner.judge report,
            { run.scene with store := run.scene.store.merge report.writes }) := by
          simp only [Runner.step?, phase]
        refine ⟨{ run.put (runner.judge report) with
          scene := { run.scene with store := run.scene.store.merge report.writes } }, ?_,
          run.scene.store.becomes_merge report.writes, ?_⟩
        · rw [step?, found, Option.bind_eq_bind, Option.bind_some, stepped]
          rfl
        · simp only [note, found, phase]
      next => cases waits

theorem unmerged_of_isQuiet (quiet : run.isQuiet = true) (name : String) :
    run.unmerged name = [] := by
  rw [unmerged]
  cases found : run.find? name with
  | none => rfl
  | some runner =>
      have gone : runner.phase = .gone :=
        of_decide_eq_true (List.all_eq_true.1 quiet runner (mem_of_find? found))
      rw [Option.map_some, Option.getD_some, Runner.unmerged, gone]

/-- The store is what the merges so far make of the first one, and every attempt that comes back is
merged once. -/
structure Replayed (store : Store) (run : Run) (ledger : Ledger) : Prop where
  stored : store.Becomes (Merge.allWrites ledger.merges) run.scene.store
  /-- No attempt comes back twice. -/
  distinct : ((ledger.returns.map Return.merge).map Merge.key).Nodup
  /-- What came back was merged, or waits to be. -/
  once : ∀ merge, (ledger.returns.map Return.merge).count merge =
    ledger.merges.count merge + (run.unmerged merge.task).count merge
  /-- The next step of a runner that has something to merge merges the whole of it. -/
  step : ∀ name, ∀ merge ∈ run.unmerged name, ∃ next, run.step? (.runner name) = some next ∧
    run.scene.store.Becomes merge.writes next.scene.store ∧
    (run.note ledger (.runner name)).merges = ledger.merges ++ [merge]
  /-- At the end nothing waits. -/
  whole : run.isQuiet = true → ledger.merges.Perm (ledger.returns.map Return.merge)

theorem Audited.replayed (audited : Audited graph seeds store run ledger) :
    Replayed store run ledger where
  stored := audited.accounts.stored
  distinct := audited.returns_nodup
  once := audited.count_returns
  step _ _ waits := merge_unmerged ledger waits
  whole quiet := by
    rw [List.perm_iff_count]
    intro merge
    rw [audited.count_returns, unmerged_of_isQuiet quiet, List.count_nil, Nat.add_zero]

end Run

end JobGraph
