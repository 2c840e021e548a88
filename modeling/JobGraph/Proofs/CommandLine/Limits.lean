import JobGraph.CommandLine.Session
import JobGraph.Proofs.Job.Times
import JobGraph.Proofs.Run.Concurrency

/-!
# Limits of sessions

The limit of a run comes from the words of the session or from the job file, and nobody looks at how
large it is until the run begins.  Up to the greatest limit that a gate supports the run has a gate
that lets in as many as the limit allows, and nobody waits in vain; above it the session breaks off
(`supported_limits_are_usable`).
-/

namespace JobGraph

/-! ## How many the gate lets in -/

namespace Gate

variable {gate : Gate} {names : List String}

/-- How many of some participants a limit lets in. -/
def capacity (limit count : Nat) : Nat := if limit = 0 then count else min limit count

/-- At a fair gate as many hold permits as the limit allows. -/
theorem Fair.held_length (fair : gate.Fair) (within : gate.Within) :
    gate.held.length = capacity gate.limit (gate.held ++ gate.waiting).length := by
  rw [capacity, List.length_append]
  by_cases empty : gate.waiting = []
  · rw [empty, List.length_nil, Nat.add_zero]
    split_ifs with unlimited
    · rfl
    · exact (Nat.min_eq_right (within unlimited)).symm
  · have full := fair.full empty
    obtain ⟨limited, taken⟩ : gate.limit ≠ 0 ∧ gate.limit ≤ gate.held.length := by
      simpa [hasRoom] using full
    have most := within limited
    rw [if_neg limited]
    omega

/-- The gate after participants have come one after the other. -/
def afterArrivals (limit : Nat) (names : List String) : Gate :=
  names.foldl acquire (ofLimit limit)

/-- Whoever comes while there is room gets a permit, and the others wait in the order in which they
came. -/
theorem afterArrivals_eq (limit : Nat) (distinct : names.Nodup) :
    afterArrivals limit names =
      ⟨limit, names.take (capacity limit names.length),
        names.drop (capacity limit names.length)⟩ := by
  induction names using List.reverseRecOn with
  | nil =>
    rw [List.take_nil, List.drop_nil]
    rfl
  | append_singleton front name inductionHypothesis =>
    obtain ⟨before, -, apart⟩ := List.nodup_append.1 distinct
    have fresh : name ∉ front := fun member => apart name member name List.mem_cons_self rfl
    have last : afterArrivals limit (front ++ [name]) = (afterArrivals limit front).acquire name :=
      List.foldl_append
    rw [last, inductionHypothesis before, acquire, grant, List.length_append,
      List.length_singleton]
    by_cases room : limit = 0 ∨ front.length < limit
    · have before : capacity limit front.length = front.length := by
        unfold capacity
        split_ifs <;> omega
      have after : capacity limit (front.length + 1) = front.length + 1 := by
        unfold capacity
        split_ifs <;> omega
      have all : front.length + 1 = (front ++ [name]).length := by simp
      have admits : hasRoom ⟨limit, front, [name]⟩ = true := by simpa [hasRoom] using room
      rw [before, after, List.take_length, List.drop_length, List.nil_append, grantFrom, admits,
        if_pos rfl, if_neg fresh, all, List.take_length, List.drop_length]
      rfl
    · obtain ⟨limited, taken⟩ := not_or.1 room
      rw [Nat.not_lt] at taken
      have before : capacity limit front.length = limit := by
        rw [capacity, if_neg limited, Nat.min_eq_left taken]
      have after : capacity limit (front.length + 1) = limit := by
        rw [capacity, if_neg limited, Nat.min_eq_left (Nat.le_succ_of_le taken)]
      have full : hasRoom ⟨limit, front.take limit, front.drop limit ++ [name]⟩ = false := by
        simp [hasRoom, limited, taken]
      rw [before, after, grantFrom_of_full full, List.take_append_of_le_length taken,
        List.drop_append_of_le_length taken]

end Gate

/-! ## The gate of a run -/

namespace Run

variable {graph : Graph} {seeds : KeyMap Seed} {limit : Nat} {store : Store}
  {cancelled keeps saves : Bool} {slot : Option Snapshot} {steps : List Step} {run : Run}

/-- At every moment of a run as many runners hold permits as the limit allows of those that stand at
the gate. -/
theorem held_length_of_steps?
    (course : (start graph limit seeds store cancelled keeps saves slot).steps? steps = some run) :
    run.scene.gate.held.length =
      Gate.capacity limit (run.scene.gate.held ++ run.scene.gate.waiting).length := by
  have taken : Course (fun _ _ => True) _ steps run := Course.of_steps? course fun _ _ _ => trivial
  obtain ⟨-, permitted, limited⟩ := taken.invariant
    (P := fun run => Orderly graph seeds run ∧ Permitted run ∧ Limited limit run)
    ⟨Orderly.start, Permitted.start, Limited.start⟩
    (fun ⟨orderly, permitted, limited⟩ _ change =>
      ⟨orderly.change change, permitted.change change, limited.change orderly change⟩)
  rw [← limited.limit]
  exact permitted.fair.held_length limited.within

end Run

/-! ## Sessions -/

namespace Session

variable {around : Surroundings} {arguments : Arguments} {assignment : Assignment}
  {plan : RestorePlan}

/-- A session has an assignment exactly if its job loads, the variants of the job are in order and
all tasks that the words mention are there.  The limit is the one of the words, and without one that
of the job file. -/
theorem assign_eq_ok_iff {files : FileTree} :
    assign files arguments = .ok assignment ↔
      loadJob files arguments.jobFile = .ok assignment.job ∧
        Work.registry.checkVariants assignment.job.graph = .ok () ∧
        arguments.selection.skipped assignment.job.graph = .ok assignment.skipped ∧
        assignment.limit =
          arguments.maxConcurrency.getD assignment.job.settings.maxConcurrency := by
  unfold assign
  constructor
  · intro assigned
    obtain ⟨job, loaded, assigned⟩ := exists_of_bind assigned
    obtain ⟨_, checked, assigned⟩ := exists_of_bind assigned
    obtain ⟨skipped, selected, assigned⟩ := exists_of_bind assigned
    cases assigned
    exact ⟨loaded, mapError_eq_ok.1 checked, mapError_eq_ok.1 selected, rfl⟩
  · obtain ⟨job, limit, skipped⟩ := assignment
    rintro ⟨loaded, checked, selected, same⟩
    dsimp only at loaded checked selected same
    rw [loaded, same]
    change (Work.registry.checkVariants job.graph).mapError Error.failure >>= _ = _
    rw [checked]
    change (arguments.selection.skipped job.graph).mapError Error.failure >>= _ = _
    rw [selected]
    rfl

/-- A session with an assignment and a plan that is no dry run breaks off if the limit is more than
a gate supports, and runs otherwise. -/
theorem carryOut_eq (assigned : assign around.files arguments = .ok assignment)
    (planned : Session.plan around.files arguments assignment = .ok plan)
    (real : arguments.dryRun = false) :
    carryOut around arguments = .ok
      (if Gate.maximumLimit < assignment.limit then quiet around brokenExit ""
        else conclude around arguments assignment.job.settings
          (rehearse around assignment plan)) := by
  unfold carryOut
  rw [assigned]
  change (if arguments.dryRun = true then _
    else Session.plan around.files arguments assignment >>= _) = _
  rw [real, planned, if_neg Bool.false_ne_true]
  change (if _ then _ else _) = _
  split_ifs <;> rfl

end Session

/-- In every session that is no dry run and gets as far as its run, the limit is the one of the
words, and without one that of the job file.  If a gate supports it, the session runs, of those that
come to the gate as many as the limit allows are let in and the others wait in order, and at every
moment of the run as many hold permits as the limit allows of those at the gate.  Otherwise the
session breaks off: nobody looked at the limit before. -/
theorem supported_limits_are_usable {around : Surroundings} {arguments : Arguments}
    {assignment : Assignment} {plan : RestorePlan}
    (assigned : Session.assign around.files arguments = .ok assignment)
    (planned : Session.plan around.files arguments assignment = .ok plan)
    (real : arguments.dryRun = false) :
    assignment.limit = arguments.maxConcurrency.getD assignment.job.settings.maxConcurrency ∧
    (Gate.maximumLimit < assignment.limit →
      Session.carryOut around arguments =
        .ok (Session.quiet around Session.brokenExit "")) ∧
    (assignment.limit ≤ Gate.maximumLimit →
      Session.carryOut around arguments =
        .ok (Session.conclude around arguments assignment.job.settings
          (Session.rehearse around assignment plan)) ∧
      (∀ names : List String, names.Nodup →
        (Gate.afterArrivals assignment.limit names).held =
            names.take (Gate.capacity assignment.limit names.length) ∧
          (Gate.afterArrivals assignment.limit names).waiting =
            names.drop (Gate.capacity assignment.limit names.length)) ∧
      ∀ (cancelled keeps saves : Bool) (slot : Option Snapshot) (steps : List Step) (run : Run),
        (Run.start assignment.job.graph assignment.limit plan.seeds plan.store
          cancelled keeps saves slot).steps? steps = some run →
        run.scene.gate.held.length = Gate.capacity assignment.limit
          (run.scene.gate.held ++ run.scene.gate.waiting).length) := by
  obtain ⟨-, -, -, limit⟩ := Session.assign_eq_ok_iff.1 assigned
  have left := Session.carryOut_eq assigned planned real
  refine ⟨limit, fun unsupported => ?_, fun supported => ⟨?_, fun names distinct => ?_, ?_⟩⟩
  · rw [left, if_pos unsupported]
  · rw [left, if_neg (Nat.not_lt.2 supported)]
  · rw [Gate.afterArrivals_eq _ distinct]
    exact ⟨rfl, rfl⟩
  · intro cancelled keeps saves slot steps run course
    exact Run.held_length_of_steps? course

/-! A job file of one task that takes no time, beside which there is nothing. -/

namespace Session

/-- A job file that defines one task. -/
def loneFile : String := "[task.a]\nvariant = \"Sleep\"\nparameters = \x7b seconds = 0 \x7d\n"

def loneSurroundings : Surroundings where
  files := FileTree.empty.withFile ["Dagrun.toml"] (Text.encodeUtf8 loneFile)
  logSetting := none
  input := []
  watched := none
  now := .ofSeconds 0 0

/-- What `--max-concurrency` asks for. -/
def limitedArguments (limit : Nat) : Arguments :=
  { Arguments.default with maxConcurrency := some limit }

theorem assign_lone (limit : Nat) :
    assign loneSurroundings.files (limitedArguments limit) =
      .ok ⟨⟨.default, .lone⟩, limit, .empty⟩ := by
  have found : readFile loneSurroundings.files "Dagrun.toml" = .ok (Text.encodeUtf8 loneFile) := by
    decide +kernel
  have text : Text.decodeUtf8? (Text.encodeUtf8 loneFile) = some loneFile := by decide +kernel
  have defined : (Toml.read? loneFile).bind Definition.ofToml? = some .lone := by decide +kernel
  have settings : Definition.lone.settings.check = .ok () := by decide +kernel
  have accepted : Definition.lone.check = .ok ⟨.default, .lone⟩ :=
    Definition.check_eq_ok_iff.2
      ⟨rfl, settings, rfl, _, Definition.lone_tasks, Graph.lone_accepted⟩
  have loaded : loadJob loneSurroundings.files "Dagrun.toml" = .ok ⟨.default, .lone⟩ := by
    unfold loadJob
    rw [mapError_eq_ok, found]
    change Job.ofBytes _ = _
    unfold Job.ofBytes Job.ofText
    rw [text]
    dsimp only
    rw [defined, ← accepted]
  have checked : Work.registry.checkVariants Graph.lone = .ok () := by decide +kernel
  have selected : Selection.skipped ⟨[], none, none⟩ Graph.lone = .ok .empty := by cbv
  exact assign_eq_ok_iff.2 ⟨loaded, checked, selected, rfl⟩

end Session

/-- The least limit that no gate supports is asked for and breaks the session off; the greatest that
a gate supports lets the session run. -/
theorem greatest_limit_is_usable :
    Arguments.read ["--max-concurrency", "2305843009213693952"] =
      .ok (Session.limitedArguments 2305843009213693952) ∧
    Session.carryOut Session.loneSurroundings (Session.limitedArguments 2305843009213693952) =
      .ok (Session.quiet Session.loneSurroundings 101 "") ∧
    ∃ rehearsal,
      Session.carryOut Session.loneSurroundings (Session.limitedArguments 2305843009213693951) =
        .ok (Session.conclude Session.loneSurroundings
          (Session.limitedArguments 2305843009213693951) .default rehearsal) := by
  have planned (limit : Nat) :
      Session.plan Session.loneSurroundings.files (Session.limitedArguments limit)
        ⟨⟨.default, .lone⟩, limit, .empty⟩ = .ok ⟨_, .empty⟩ := rfl
  obtain ⟨-, breaks, -⟩ := supported_limits_are_usable
    (Session.assign_lone 2305843009213693952) (planned _) rfl
  obtain ⟨-, -, runs⟩ := supported_limits_are_usable
    (Session.assign_lone 2305843009213693951) (planned _) rfl
  exact ⟨by decide +kernel, breaks (by decide), _, (runs (by decide)).1⟩

end JobGraph
