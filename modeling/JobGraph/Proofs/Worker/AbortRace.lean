import JobGraph.Proofs.Worker.Deeds
import JobGraph.Worker.Serve

/-!
# The race between a lifecycle and an abort

The two threads of a worker take their steps in any order.  An abort begins with two looks at flags,
and what the lifecycle does in between matters: as long as it does not finish there, a worker has
one outcome (`one_outcome_unless_overtaken`).  Otherwise it can have two
(`overtaken_abort_has_two_outcomes`).

Each thread goes through a few stages (`LifecycleStage`, `WatcherStage`), and the flags and the
results that were sent are what the two stages say (`Threads.Tracked`).
-/

namespace JobGraph

/-! ## Programs that lead somewhere -/

deriving instance DecidableEq for Operation

namespace Operation

/-- The result that an operation sends, if it sends one: whether the attempt failed and whether it
was aborted. -/
def result? : Operation → Option (Bool × Bool)
  | .report failed aborted => some (failed, aborted)
  | _ => none

theorem result?_of_open {operation : Operation} (open_ : operation.isReserved = false) :
    operation.result? = none := by
  cases operation <;> first | rfl | cases open_

end Operation

namespace Context

/-- The results that were sent. -/
def results (context : Context) : List (Bool × Bool) :=
  context.frames.filterMap fun frame =>
    match frame with
    | .finished failed aborted => some (failed, aborted)
    | _ => none

theorem results_perform (context : Context) (operation : Operation) :
    (context.perform operation).1.results = context.results ++ operation.result?.toList := by
  rw [results, frames, sent_perform, List.filterMap_append, List.filterMap_append]
  congr 1
  cases operation <;> rfl

theorem finished_perform (context : Context) {operation : Operation}
    (open_ : operation.isReserved = false) :
    (context.perform operation).1.finished = context.finished := by
  cases operation <;> first | rfl | cases open_

end Context

namespace Program

variable {α β : Type}

/-- Whether a program carries out no reserved operation, whatever it is answered. -/
inductive Open : Program α → Prop
  | done (result : α) : Open (.done result)
  | act (operation : Operation) (next : operation.Answer → Program α) :
      operation.isReserved = false → (∀ answer, Open (next answer)) → Open (.act operation next)

/-- Whether a program carries out no reserved operation until it is the given rest. -/
inductive LeadsTo (rest : Program α) : Program α → Prop
  | here : LeadsTo rest rest
  | act (operation : Operation) (next : operation.Answer → Program α) :
      operation.isReserved = false → (∀ answer, LeadsTo rest (next answer)) →
      LeadsTo rest (.act operation next)

theorem Open.bind {program : Program α} (opens : program.Open) {next : α → Program β}
    (all : ∀ result, (next result).Open) : (program >>= next).Open := by
  induction opens with
  | done result => exact all result
  | act operation rest open_ _ inductionHypothesis =>
    exact .act operation _ open_ inductionHypothesis

theorem Open.leadsTo_bind {program : Program α} (opens : program.Open) {rest : Program β}
    {next : α → Program β} (all : ∀ result, LeadsTo rest (next result)) :
    LeadsTo rest (program >>= next) := by
  induction opens with
  | done result => exact all result
  | act operation _ open_ _ inductionHypothesis =>
    exact .act operation _ open_ inductionHypothesis

theorem LeadsTo.inspect_bind {rest : Program α} {next : Context → Program α}
    (all : ∀ context, LeadsTo rest (next context)) : LeadsTo rest (inspect >>= next) :=
  .act .inspect _ rfl all

theorem LeadsTo.bind {program rest : Program α} (leads : LeadsTo rest program)
    (next : α → Program β) : LeadsTo (rest >>= next) (program >>= next) := by
  induction leads with
  | here => exact .here
  | act operation _ open_ _ inductionHypothesis =>
    exact .act operation _ open_ inductionHypothesis

end Program

/-- Whether no hook carries out an operation of the lifecycle or of the abort. -/
structure TaskHooks.Open (task : TaskHooks) : Prop where
  onCreate : task.onCreate.Open
  onRestart : task.onRestart.Open
  run : task.run.Open
  onSuccess : task.onSuccess.Open
  onFailure : task.onFailure.Open
  onDestroy : task.onDestroy.Open
  onAbort : task.onAbort.Open

theorem Hook.open_guarded {hook : Hook} (opens : hook.Open) (stage : String) :
    (Hook.guarded stage hook).Open := by
  apply opens.bind
  intro ending
  cases ending with
  | ok => exact .done ()
  | failed failure => exact .act (.log ..) _ rfl fun _ => .act .fail _ rfl fun _ => .done ()
  | panicked message => exact .act (.log ..) _ rfl fun _ => .act .fail _ rfl fun _ => .done ()

/-! ## The stages of the two threads -/

/-- How far the first thread of a worker is. -/
inductive LifecycleStage where
  | working
  | finished
  /-- It knows how the attempt went and is about to look whether there is an abort. -/
  | looking (failed : Bool)
  | telling (failed : Bool)
  | told (failed : Bool)
  /-- It leaves the end to the other thread. -/
  | parked
  deriving DecidableEq

namespace LifecycleStage

def tell (failed : Bool) : Program (Option Nat) :=
  .act (.report failed false) fun _ => .done (some (if failed then 1 else 0))

def look (failed : Bool) : Program (Option Nat) :=
  .act .inspect fun context => if context.aborted then .done none else tell failed

/-- What follows the hooks of an attempt. -/
def close : Program (Option Nat) :=
  .act .finish fun _ => .act .inspect fun context => look context.failed

/-- Whether a thread at a stage has a program before it. -/
def Fits : LifecycleStage → Program (Option Nat) → Prop
  | .working, program => Program.LeadsTo close program
  | .finished, program => program = .act .inspect fun context => look context.failed
  | .looking failed, program => program = look failed
  | .telling failed, program => program = tell failed
  | .told failed, program => program = .done (some (if failed then 1 else 0))
  | .parked, program => program = .done none

/-- Whether the lifecycle has finished. -/
def hasFinished : LifecycleStage → Bool
  | .working => false
  | _ => true

/-- Whether the thread has seen that there is no abort. -/
def isClear : LifecycleStage → Bool
  | .telling _ | .told _ => true
  | _ => false

theorem isClear_of_unfinished {stage : LifecycleStage} (unfinished : stage.hasFinished = false) :
    stage.isClear = false := by
  cases stage with
  | working => rfl
  | finished | looking | telling | told | parked => cases unfinished

/-- What the thread has sent. -/
def results : LifecycleStage → List (Bool × Bool)
  | .told failed => [(failed, false)]
  | _ => []

theorem length_results_le (stage : LifecycleStage) : stage.results.length ≤ 1 := by
  cases stage <;> simp [results]

theorem results_of_unclear {stage : LifecycleStage} (unclear : stage.isClear = false) :
    stage.results = [] := by
  cases stage with
  | told => cases unclear
  | working | finished | looking | telling | parked => rfl

theorem leadsTo_lifecycle {task : TaskHooks} (opens : task.Open) :
    Program.LeadsTo (.act .finish fun _ => .act .inspect fun context => .done context.failed)
      task.lifecycle := by
  have guarded {hook : Hook} (opens : hook.Open) (stage : String) {next : Unit → Program Bool}
      {rest : Program Bool} (leads : Program.LeadsTo rest (next ())) :
      Program.LeadsTo rest (Hook.guarded stage hook >>= next) :=
    (Hook.open_guarded opens stage).leadsTo_bind fun _ => leads
  have running : Program.LeadsTo
      (.act .finish fun _ => .act .inspect fun context => .done context.failed)
      (do
        Hook.guarded "run" task.run
        if (← Program.inspect).failed then
          Hook.guarded "on_failure" task.onFailure
        else
          Hook.guarded "on_success" task.onSuccess
        Hook.guarded "on_destroy" task.onDestroy
        Program.perform .finish
        return (← Program.inspect).failed) := by
    apply guarded opens.run
    apply Program.LeadsTo.inspect_bind
    intro context
    split
    · apply guarded opens.onFailure
      apply guarded opens.onDestroy
      exact .here
    · apply guarded opens.onSuccess
      apply guarded opens.onDestroy
      exact .here
  unfold TaskHooks.lifecycle
  apply guarded opens.onCreate
  apply Program.LeadsTo.inspect_bind
  intro context
  split
  · apply guarded opens.onRestart
    exact running
  · exact running

theorem fits_lifecycleThread {task : TaskHooks} (opens : task.Open) :
    Fits .working task.lifecycleThread :=
  (leadsTo_lifecycle opens).bind fun failed => look failed

/-- How a step of the thread in a context leads from one stage to another. -/
inductive Move (context : Context) : LifecycleStage → Operation → LifecycleStage → Prop
  | work (operation : Operation) : operation.isReserved = false →
      Move context .working operation .working
  | finish : Move context .working .finish .finished
  | judge : Move context .finished .inspect (.looking context.failed)
  | clear (failed : Bool) : context.aborted = false →
      Move context (.looking failed) .inspect (.telling failed)
  | park (failed : Bool) : context.aborted = true →
      Move context (.looking failed) .inspect .parked
  | tell (failed : Bool) : Move context (.telling failed) (.report failed false) (.told failed)

namespace Move

variable {context : Context} {stage later : LifecycleStage} {operation : Operation}

theorem finished (move : Move context stage operation later)
    (before : context.finished = stage.hasFinished) :
    (context.perform operation).1.finished = later.hasFinished := by
  cases move with
  | work _ open_ => exact (context.finished_perform open_).trans before
  | finish => rfl
  | judge | clear | park | tell => exact before

theorem aborted (move : Move context stage operation later) :
    (context.perform operation).1.aborted = context.aborted := by
  cases move with
  | work _ open_ => exact context.aborted_perform open_
  | finish | judge | clear | park | tell => rfl

theorem results (move : Move context stage operation later) :
    later.results = stage.results ++ operation.result?.toList := by
  cases move with
  | work _ open_ => simp [Operation.result?_of_open open_]
  | finish | judge | clear | park | tell => rfl

theorem ne_claimAbort (move : Move context stage operation later) : operation ≠ .claimAbort := by
  rintro rfl
  cases move with
  | work _ open_ => cases open_

theorem hasFinished (move : Move context stage operation later)
    (after : later.hasFinished = true) : stage.hasFinished = true ∨ operation = .finish := by
  cases move with
  | work => cases after
  | finish => exact .inr rfl
  | judge | clear | park | tell => exact .inl rfl

/-- The thread goes on to its result only if there is no abort when it looks. -/
theorem isClear (move : Move context stage operation later) (after : later.isClear = true) :
    stage.isClear = true ∨ context.aborted = false := by
  cases move with
  | work | finish | judge | park => cases after
  | clear _ unaborted => exact .inr unaborted
  | tell => exact .inl rfl

end Move

theorem Fits.exists_move {stage : LifecycleStage} {operation : Operation}
    {next : operation.Answer → Program (Option Nat)} (fits : stage.Fits (.act operation next))
    (context : Context) :
    ∃ later, Move context stage operation later ∧
      later.Fits (next (context.perform operation).2) := by
  cases stage with
  | working =>
    cases fits with
    | here => exact ⟨.finished, .finish, rfl⟩
    | act _ _ open_ leads => exact ⟨.working, .work operation open_, leads _⟩
  | finished =>
    cases fits
    exact ⟨.looking context.failed, .judge, rfl⟩
  | looking failed =>
    cases fits
    cases aborted : context.aborted with
    | false =>
      refine ⟨.telling failed, .clear failed aborted, ?_⟩
      simp [Context.perform, aborted, Fits]
    | true =>
      refine ⟨.parked, .park failed aborted, ?_⟩
      simp [Context.perform, aborted, Fits]
  | telling failed =>
    cases fits
    exact ⟨.told failed, .tell failed, rfl⟩
  | told failed => cases fits
  | parked => cases fits

end LifecycleStage

/-- How far the second thread of a worker is. -/
inductive WatcherStage where
  | asking
  | claiming
  | aborting
  | told
  /-- It did not come to abort anything. -/
  | idle
  deriving DecidableEq

namespace WatcherStage

/-- What follows the hook of an abort. -/
def close : Program (Option Nat) :=
  .act (.report true true) fun _ => .done (some abortExitCode)

def conclude (aborted : Bool) : Program (Option Nat) := if aborted then close else .done none

/-- What follows the claim of an abort, by its answer. -/
def claim (task : TaskHooks) (first : Bool) : Program (Option Nat) := do
  let aborted ← (do
    if first then
      Hook.guarded "on_abort" task.onAbort
      Program.fail
      return true
    else
      return false)
  conclude aborted

def Fits (task : TaskHooks) : WatcherStage → Program (Option Nat) → Prop
  | .asking, program => program = task.watcherThread
  | .claiming, program => program = .act .claimAbort (claim task)
  | .aborting, program => Program.LeadsTo close program
  | .told, program => program = .done (some abortExitCode)
  | .idle, program => program = .done none

/-- Whether the hook of the abort has started. -/
def hasStarted : WatcherStage → Bool
  | .aborting | .told => true
  | _ => false

def results : WatcherStage → List (Bool × Bool)
  | .told => [(true, true)]
  | _ => []

theorem length_results_le (stage : WatcherStage) : stage.results.length ≤ 1 := by
  cases stage <;> decide

theorem results_of_unstarted {stage : WatcherStage} (unstarted : stage.hasStarted = false) :
    stage.results = [] := by
  cases stage with
  | told => cases unstarted
  | asking | claiming | aborting | idle => rfl

theorem eq_of_mem_results (stage : WatcherStage) {result : Bool × Bool}
    (sent : result ∈ stage.results) : result = (true, true) := by
  cases stage with
  | told => exact List.mem_singleton.1 sent
  | asking | claiming | aborting | idle => cases sent

inductive Move (context : Context) : WatcherStage → Operation → WatcherStage → Prop
  | refrain : context.finished = true → Move context .asking .isFinished .idle
  | ask : context.finished = false → Move context .asking .isFinished .claiming
  | start : context.aborted = false → Move context .claiming .claimAbort .aborting
  | lose : context.aborted = true → Move context .claiming .claimAbort .idle
  | work (operation : Operation) : operation.isReserved = false →
      Move context .aborting operation .aborting
  | tell : Move context .aborting (.report true true) .told

namespace Move

variable {context : Context} {stage later : WatcherStage} {operation : Operation}

theorem finished (move : Move context stage operation later) :
    (context.perform operation).1.finished = context.finished := by
  cases move with
  | work _ open_ => exact context.finished_perform open_
  | refrain | ask | start | lose | tell => rfl

theorem aborted (move : Move context stage operation later)
    (before : context.aborted = stage.hasStarted) :
    (context.perform operation).1.aborted = later.hasStarted := by
  cases move with
  | work _ open_ => exact (context.aborted_perform open_).trans before
  | refrain | ask | tell => exact before
  | start => rfl
  | lose aborted => cases aborted.symm.trans before

theorem results (move : Move context stage operation later) :
    later.results = stage.results ++ operation.result?.toList := by
  cases move with
  | work _ open_ => simp [Operation.result?_of_open open_, WatcherStage.results]
  | refrain | ask | start | lose | tell => rfl

/-- The thread comes to claim an abort only if the lifecycle had not finished when it asked. -/
theorem asked (move : Move context stage operation later) (after : later = .claiming) :
    operation = .isFinished ∧ context.finished = false := by
  subst after
  cases move with
  | ask unfinished => exact ⟨rfl, unfinished⟩

/-- The hook starts with the claim, or it has started before. -/
theorem start_cases (move : Move context stage operation later)
    (before : context.aborted = stage.hasStarted) :
    (stage = .claiming ∧ operation = .claimAbort ∧ context.aborted = false ∧
        later.hasStarted = true) ∨
      operation ≠ .claimAbort ∧ later.hasStarted = stage.hasStarted := by
  cases move with
  | work _ open_ =>
    right
    refine ⟨?_, rfl⟩
    rintro rfl
    cases open_
  | refrain | ask | tell => exact .inr ⟨Operation.noConfusion, rfl⟩
  | start unaborted => exact .inl ⟨rfl, rfl, unaborted, rfl⟩
  | lose aborted => cases aborted.symm.trans before

end Move

theorem leadsTo_claim {task : TaskHooks} (opens : task.Open) :
    Program.LeadsTo close (claim task true) := by
  have aborting : Program.LeadsTo (.done true) (do
      Hook.guarded "on_abort" task.onAbort
      Program.fail
      return true) := by
    apply (Hook.open_guarded opens.onAbort "on_abort").leadsTo_bind
    intro _
    exact .act .fail _ rfl fun _ => .here
  exact aborting.bind conclude

theorem Fits.exists_move {task : TaskHooks} (opens : task.Open) {stage : WatcherStage}
    {operation : Operation} {next : operation.Answer → Program (Option Nat)}
    (fits : stage.Fits task (.act operation next)) (context : Context) :
    ∃ later, Move context stage operation later ∧
      later.Fits task (next (context.perform operation).2) := by
  cases stage with
  | asking =>
    cases fits
    cases finished : context.finished with
    | false =>
      refine ⟨.claiming, .ask finished, ?_⟩
      simp only [Context.perform, finished]
      rfl
    | true =>
      refine ⟨.idle, .refrain finished, ?_⟩
      simp only [Context.perform, finished]
      rfl
  | claiming =>
    cases fits
    cases aborted : context.aborted with
    | false =>
      refine ⟨.aborting, .start aborted, ?_⟩
      simp only [Context.perform, aborted]
      exact leadsTo_claim opens
    | true =>
      refine ⟨.idle, .lose aborted, ?_⟩
      simp only [Context.perform, aborted]
      rfl
  | aborting =>
    cases fits with
    | here => exact ⟨.told, .tell, rfl⟩
    | act _ _ open_ leads => exact ⟨.aborting, .work operation open_, leads _⟩
  | told => cases fits
  | idle => cases fits

end WatcherStage

/-! ## What the threads carry out -/

namespace Threads

/-- An operation that a thread carried out, and the context in which it did. -/
structure Taken where
  thread : Thread
  operation : Operation
  context : Context

/-- Whether an operation starts the hook of the abort: it claims an abort that was not claimed. -/
def Taken.startsAbort (taken : Taken) : Bool :=
  match taken.operation with
  | .claimAbort => !taken.context.aborted
  | _ => false

/-- The operation that the next step of a thread carries out. -/
def taken? (threads : Threads) (thread : Thread) : Option Taken :=
  if threads.exit.isSome then none
  else
    match threads.program thread with
    | .done _ => none
    | .act operation _ => some ⟨thread, operation, threads.context⟩

/-- What is carried out when the threads take their steps in a given order. -/
def history (threads : Threads) : List Thread → List Taken
  | [] => []
  | thread :: rest =>
    (threads.taken? thread).toList ++ ((threads.step? thread).getD threads).history rest

/-- Whether the lifecycle finishes between the two looks of an abort. -/
def Overtaken (history : List Taken) : Prop :=
  [.isFinished, .finish, .claimAbort].Sublist (history.map Taken.operation)

instance (history : List Taken) : Decidable (Overtaken history) :=
  inferInstanceAs (Decidable (List.Sublist _ _))

/-- What the stages of the two threads say about a worker and what was carried out in it. -/
structure Tracked (task : TaskHooks) (threads : Threads) (history : List Taken)
    (first : LifecycleStage) (second : WatcherStage) : Prop where
  lifecycle : first.Fits threads.lifecycle
  watcher : second.Fits task threads.watcher
  finished : threads.context.finished = first.hasFinished
  aborted : threads.context.aborted = second.hasStarted
  results : threads.context.results.Perm (first.results ++ second.results)
  starts : history.countP Taken.startsAbort = if second.hasStarted then 1 else 0
  asked : second = .claiming → .isFinished ∈ history.map Taken.operation
  passed : second = .claiming → first.hasFinished = true →
    [.isFinished, .finish].Sublist (history.map Taken.operation)
  apart : ¬Overtaken history → (second.hasStarted = true → first.isClear = false) ∧
    ∀ taken ∈ history, taken.startsAbort = true → taken.context.finished = false

theorem Overtaken.append {history : List Taken} (overtaken : Overtaken history)
    (later : List Taken) : Overtaken (history ++ later) := by
  rw [Overtaken, List.map_append]
  exact overtaken.trans (List.sublist_append_left ..)

theorem startsAbort_of_ne (thread : Thread) {operation : Operation} (context : Context)
    (other : operation ≠ .claimAbort) : Taken.startsAbort ⟨thread, operation, context⟩ = false := by
  unfold Taken.startsAbort
  split
  next claims => exact absurd claims other
  next => rfl

namespace Tracked

variable {task : TaskHooks} {threads : Threads} {history : List Taken} {first : LifecycleStage}
  {second : WatcherStage} {operation : Operation}
  {next : operation.Answer → Program (Option Nat)}

theorem start {task : TaskHooks} (opens : task.Open) (request : Request) :
    Tracked task (.start task (.ofRequest request)) [] .working .asking where
  lifecycle := LifecycleStage.fits_lifecycleThread opens
  watcher := rfl
  finished := rfl
  aborted := rfl
  results := .nil
  starts := rfl
  asked := fun claiming => by cases claiming
  passed := fun claiming => by cases claiming
  apart := fun _ => ⟨fun started => (by cases started), List.forall_mem_nil _⟩

theorem act_lifecycle (tracked : Tracked task threads history first second)
    (at_ : threads.lifecycle = .act operation next) :
    ∃ later, Tracked task
      { threads with
        context := (threads.context.perform operation).1
        lifecycle := next (threads.context.perform operation).2 }
      (history ++ [⟨.lifecycle, operation, threads.context⟩]) later second := by
  have fits := tracked.lifecycle
  rw [at_] at fits
  obtain ⟨later, move, fits⟩ := fits.exists_move threads.context
  have quiet : Taken.startsAbort ⟨.lifecycle, operation, threads.context⟩ = false :=
    startsAbort_of_ne _ _ move.ne_claimAbort
  refine ⟨later, ?_⟩
  constructor
  case lifecycle => exact fits
  case watcher => exact tracked.watcher
  case finished => exact move.finished tracked.finished
  case aborted => exact move.aborted.trans tracked.aborted
  case results =>
    rw [Context.results_perform, move.results, List.append_assoc]
    have sent := tracked.results.append_right operation.result?.toList
    rw [List.append_assoc] at sent
    -- The first thread's result comes before the second's in the count, whenever it was sent.
    exact sent.trans (List.perm_append_comm.append_left first.results)
  case starts => simp [List.countP_append, quiet, tracked.starts]
  case asked =>
    intro claiming
    rw [List.map_append]
    exact List.mem_append_left _ (tracked.asked claiming)
  case passed =>
    intro claiming after
    rw [List.map_append]
    rcases move.hasFinished after with before | rfl
    · exact (tracked.passed claiming before).trans (List.sublist_append_left ..)
    · exact (List.singleton_sublist.2 (tracked.asked claiming)).append (List.Sublist.refl [_])
  case apart =>
    intro apart
    obtain ⟨exclusive, before⟩ := tracked.apart fun overtaken => apart (overtaken.append _)
    constructor
    · intro started
      cases clear : later.isClear with
      | false => rfl
      | true =>
        rcases move.isClear clear with clear | unaborted
        · exact clear.symm.trans (exclusive started)
        · cases (unaborted.symm.trans tracked.aborted).trans started
    · apply List.forall_mem_append.2 ⟨before, List.forall_mem_singleton.2 ?_⟩
      intro starts
      cases quiet.symm.trans starts

theorem act_watcher (opens : task.Open) (tracked : Tracked task threads history first second)
    (at_ : threads.watcher = .act operation next) :
    ∃ later, Tracked task
      { threads with
        context := (threads.context.perform operation).1
        watcher := next (threads.context.perform operation).2 }
      (history ++ [⟨.watcher, operation, threads.context⟩]) first later := by
  have fits := tracked.watcher
  rw [at_] at fits
  obtain ⟨later, move, fits⟩ := fits.exists_move opens threads.context
  refine ⟨later, ?_⟩
  constructor
  case lifecycle => exact tracked.lifecycle
  case watcher => exact fits
  case finished => exact move.finished.trans tracked.finished
  case aborted => exact move.aborted tracked.aborted
  case results =>
    rw [Context.results_perform, move.results, ← List.append_assoc]
    exact tracked.results.append_right _
  case starts =>
    rw [List.countP_append, tracked.starts, List.countP_singleton]
    rcases move.start_cases tracked.aborted with ⟨rfl, rfl, unaborted, started⟩ | ⟨other, same⟩
    · have before : WatcherStage.claiming.hasStarted = false := rfl
      simp [Taken.startsAbort, before, unaborted, started]
    · simp [startsAbort_of_ne _ _ other, same]
  case asked =>
    intro claiming
    rw [(move.asked claiming).1, List.map_append]
    exact List.mem_append_right _ (List.mem_singleton.2 rfl)
  case passed =>
    intro claiming after
    -- The thread goes on to its claim only from an answer that the lifecycle had not finished.
    cases ((move.asked claiming).2.symm.trans tracked.finished).trans after
  case apart =>
    intro apart
    obtain ⟨exclusive, before⟩ := tracked.apart fun overtaken => apart (overtaken.append _)
    rcases move.start_cases tracked.aborted with ⟨claiming, rfl, unaborted, -⟩ | ⟨other, same⟩
    · -- Had the lifecycle finished, this claim would come third after the question and the finish.
      have unfinished : first.hasFinished = false := by
        cases after : first.hasFinished with
        | false => rfl
        | true =>
          refine absurd ?_ apart
          rw [Overtaken, List.map_append]
          exact (tracked.passed claiming after).append (List.Sublist.refl [_])
      constructor
      · intro _
        exact LifecycleStage.isClear_of_unfinished unfinished
      · apply List.forall_mem_append.2 ⟨before, List.forall_mem_singleton.2 ?_⟩
        intro _
        exact tracked.finished.trans unfinished
    · constructor
      · intro started
        exact exclusive (same ▸ started)
      · apply List.forall_mem_append.2 ⟨before, List.forall_mem_singleton.2 ?_⟩
        intro starts
        cases (startsAbort_of_ne _ _ other).symm.trans starts

theorem step (opens : task.Open) (tracked : Tracked task threads history first second)
    (thread : Thread) :
    ∃ first second, Tracked task ((threads.step? thread).getD threads)
      (history ++ (threads.taken? thread).toList) first second := by
  rw [step?, taken?]
  split
  next ended =>
    rw [Option.toList_none, List.append_nil]
    exact ⟨first, second, tracked⟩
  next going =>
    cases at_ : threads.program thread with
    | done exit =>
      rw [Option.toList_none, List.append_nil]
      cases exit with
      | none => exact ⟨first, second, tracked⟩
      | some code => exact ⟨first, second, { tracked with }⟩
    | act operation next =>
      cases thread with
      | lifecycle =>
        obtain ⟨later, tracked⟩ := tracked.act_lifecycle at_
        exact ⟨later, second, tracked⟩
      | watcher =>
        obtain ⟨later, tracked⟩ := tracked.act_watcher opens at_
        exact ⟨first, later, tracked⟩

theorem run (opens : task.Open) (tracked : Tracked task threads history first second)
    (order : List Thread) :
    ∃ first second, Tracked task (threads.run order) (history ++ threads.history order)
      first second := by
  induction order generalizing threads history first second with
  | nil =>
    rw [Threads.history, List.append_nil]
    exact ⟨first, second, tracked⟩
  | cons thread rest inductionHypothesis =>
    obtain ⟨first, second, tracked⟩ := tracked.step opens thread
    rw [Threads.history, ← List.append_assoc]
    exact inductionHypothesis tracked

end Tracked

end Threads

/-- A worker makes an attempt at a task whose hooks carry out no reserved operation, and its threads
take their steps in some order.  The hook of the abort starts at most once.  Unless the lifecycle
finishes between the two looks of the abort, the hook does not start once the lifecycle has
finished, at most one result is sent, and after a start it is that of an abort. -/
theorem one_outcome_unless_overtaken {task : TaskHooks} (opens : task.Open) (request : Request)
    (order : List Thread) :
    let worker := Threads.start task (.ofRequest request)
    let results := (worker.run order).context.results
    (worker.history order).countP Threads.Taken.startsAbort ≤ 1 ∧
      (¬Threads.Overtaken (worker.history order) →
        (∀ taken ∈ worker.history order, taken.startsAbort = true →
          taken.context.finished = false) ∧
        results.length ≤ 1 ∧
        ((∃ taken ∈ worker.history order, taken.startsAbort = true) →
          ∀ result ∈ results, result = (true, true))) := by
  intro worker results
  obtain ⟨first, second, tracked⟩ :=
    (Threads.Tracked.start opens request).run opens order
  rw [List.nil_append] at tracked
  constructor
  · rw [tracked.starts]
    split <;> omega
  · intro apart
    obtain ⟨exclusive, before⟩ := tracked.apart apart
    refine ⟨before, ?_, ?_⟩
    · rw [tracked.results.length_eq, List.length_append]
      cases started : second.hasStarted with
      | false =>
        rw [WatcherStage.results_of_unstarted started]
        exact first.length_results_le
      | true =>
        rw [LifecycleStage.results_of_unclear (exclusive started), List.length_nil, Nat.zero_add]
        exact second.length_results_le
    · rintro ⟨taken, listed, starts⟩ result sent
      have started : second.hasStarted = true := by
        have some_ : 0 < (worker.history order).countP Threads.Taken.startsAbort :=
          List.countP_pos_iff.2 ⟨taken, listed, starts⟩
        rw [tracked.starts] at some_
        split at some_
        next started => exact started
        next => omega
      have sent := tracked.results.mem_iff.1 sent
      rw [LifecycleStage.results_of_unclear (exclusive started), List.nil_append] at sent
      exact second.eq_of_mem_results sent

/-- A task whose hooks do nothing. -/
def TaskHooks.idle : TaskHooks where
  onCreate := Hook.nothing
  onRestart := Hook.nothing
  run := Hook.nothing
  onSuccess := Hook.nothing
  onFailure := Hook.nothing
  onDestroy := Hook.nothing
  onAbort := Hook.nothing

theorem TaskHooks.open_idle : TaskHooks.idle.Open :=
  ⟨.done _, .done _, .done _, .done _, .done _, .done _, .done _⟩

/-- A request for a first attempt. -/
def Request.plain : Request where
  name := "t"
  variant := "Sleep"
  parameters := .null
  dependsOn := []
  attempt := 1
  isRestart := false
  store := .empty

/-- An abort looks twice before the lifecycle finishes; then both threads go on. -/
theorem early_abort_has_one_outcome :
    let worker := Threads.start .idle (.ofRequest .plain)
    let order := List.replicate 2 Thread.watcher ++ List.replicate 6 Thread.lifecycle ++
      List.replicate 3 Thread.watcher
    ¬Threads.Overtaken (worker.history order) ∧
      (worker.run order).context.results.length ≤ 1 ∧
      (worker.run order).context.results = [(true, true)] := by
  intro worker order
  have apart : ¬Threads.Overtaken (worker.history order) := by decide +kernel
  obtain ⟨-, outcome⟩ := one_outcome_unless_overtaken TaskHooks.open_idle .plain order
  exact ⟨apart, (outcome apart).2.1, by decide +kernel⟩

/-- The lifecycle finishes between the two looks of an abort and sends its result; then the hook of
the abort starts all the same, and a second result is sent. -/
theorem overtaken_abort_has_two_outcomes :
    let worker := Threads.start .idle (.ofRequest .plain)
    let order := [Thread.watcher] ++ List.replicate 6 Thread.lifecycle ++
      List.replicate 3 Thread.watcher
    (∃ taken ∈ worker.history order, taken.startsAbort = true ∧
        taken.context.finished = true) ∧
      (worker.run order).context.results = [(false, false), (true, true)] := by
  decide +kernel

end JobGraph
