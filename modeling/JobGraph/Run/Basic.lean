import JobGraph.Checkpoint.Keeper
import JobGraph.Run.Aggregator
import JobGraph.Run.Runner

/-!
# Runs

A run is the state of everything that takes part in it: a runner for each task, what the runners
share, the aggregator, the saver that writes checkpoints from time to time, and the conductor that
declares the run complete, waits for all others and writes or clears the last checkpoint.

`Run.step?` is one step of one of them.  A course of a run is a list of steps; which of the possible
steps comes next is left open, so a statement about all courses holds for every schedule.
-/

namespace JobGraph

/-- How far the saver has come. -/
inductive SaverPhase where
  /-- Waits for the time of its next checkpoint. -/
  | waiting
  /-- About to look at the published states. -/
  | viewing
  /-- Has the states and is about to look at the store. -/
  | viewed (states : StateMap)
  /-- A checkpoint is being written. -/
  | writing (snapshot : Snapshot)
  | stopped
  deriving DecidableEq, Repr

/-- How far the conductor has come. -/
inductive ConductorPhase where
  /-- Waits until no task is active. -/
  | settling
  /-- Waits for the runners, the aggregator and the saver. -/
  | collecting
  /-- About to write or clear the last checkpoint. -/
  | finalizing
  | done (final : Option FinalCheckpoint)
  deriving DecidableEq, Repr

/-- A write of a checkpoint, and whether it took effect. -/
structure SavedWrite where
  snapshot : Snapshot
  accepted : Bool
  deriving DecidableEq, Repr

/-- The state of a run. -/
structure Run where
  runners : List Runner
  scene : Scene
  aggregator : Aggregator
  saver : SaverPhase
  conductor : ConductorPhase
  /-- Whether the run is declared complete. -/
  complete : Bool
  /-- Whether checkpoints are kept at all. -/
  keeps : Bool
  /-- The checkpoint that is kept. -/
  slot : Option Snapshot
  /-- All writes of checkpoints, in order. -/
  writes : List SavedWrite
  deriving DecidableEq, Repr

/-- One step of a run. -/
inductive Step where
  /-- The next step of a runner. -/
  | runner (name : String)
  /-- The next step of a runner that has not seen a call to stop which has just come. -/
  | overtaken (name : String)
  /-- An attempt puts out a line of its log. -/
  | line (name : String) (severity : Severity) (message : String)
  /-- An attempt ends. -/
  | ended (name : String) (result : AttemptResult)
  /-- The pause of a runner ends. -/
  | rested (name : String)
  /-- The run is told to stop. -/
  | cancel
  | aggregator
  /-- The time of the next checkpoint has come. -/
  | tick
  /-- The next step of the saver; a write takes effect if it is accepted. -/
  | saver (accepted : Bool)
  /-- The next step of the conductor; its write takes effect if it is accepted. -/
  | conductor (accepted : Bool)
  deriving DecidableEq, Repr

namespace Run

/-- The seed of a task in a choice of seeds; a task that is not in it runs for the first time. -/
def seedOf (seeds : KeyMap Seed) (name : String) : Seed := (seeds.find? name).getD (.fresh false)

def start (graph : Graph) (limit : Nat) (seeds : KeyMap Seed) (store : Store) (cancelled : Bool)
    (keeps saves : Bool) (slot : Option Snapshot) : Run where
  runners := graph.tasks.map fun task => Runner.ofTask task (seedOf seeds task.name)
  scene := ⟨Gate.ofLimit limit, store, [], [], cancelled⟩
  aggregator := Aggregator.ofStates (StateMap.allIn graph.names .init)
  saver := if keeps && saves then .waiting else .stopped
  conductor := .settling
  complete := false
  keeps := keeps
  slot := slot
  writes := []

/-- Registers observers. -/
def attend (run : Run) (observers : Nat) : Run :=
  { run with aggregator := run.aggregator.attend observers }

def find? (run : Run) (name : String) : Option Runner :=
  run.runners.find? fun runner => runner.name = name

/-- What others see of the runner of a task. -/
def handle? (run : Run) (name : String) : Option Handle := (run.find? name).map Runner.handle

/-- Puts a runner in the place of the one for the same task. -/
def put (run : Run) (runner : Runner) : Run :=
  { run with
    runners := run.runners.map fun other => if other.name = runner.name then runner else other }

/-- Whether nobody is left to send events. -/
def isQuiet (run : Run) : Bool := run.runners.all Runner.isGone

/-- Makes a write of a checkpoint, which changes the one that is kept only if it is accepted. -/
def write (run : Run) (snapshot : Snapshot) (accepted : Bool) : Run :=
  { run with
    slot := if accepted then some snapshot else run.slot
    writes := run.writes ++ [⟨snapshot, accepted⟩] }

def saverStep? (run : Run) (accepted : Bool) : Option Run :=
  match run.saver with
  | .waiting => if run.complete then some { run with saver := .stopped } else none
  | .viewing => some { run with saver := .viewed run.aggregator.states }
  | .viewed states => some { run with saver := .writing ⟨states, run.scene.store⟩ }
  | .writing snapshot => some ({ run with saver := .waiting }.write snapshot accepted)
  | .stopped => none

/-- Writes the last checkpoint of a run with failures, and leaves none after a clean run. -/
def finalize (run : Run) (accepted : Bool) : Run :=
  if !run.keeps then { run with conductor := .done none }
  else
    let final := FinalCheckpoint.ofStates run.aggregator.states
    let conductor := ConductorPhase.done (if accepted then some final else none)
    match final with
    | .written =>
      { run with conductor }.write ⟨run.aggregator.states, run.scene.store⟩ accepted
    | .cleared => { run with conductor, slot := if accepted then none else run.slot }

def conductorStep? (run : Run) (accepted : Bool) : Option Run :=
  match run.conductor with
  | .settling =>
    if run.aggregator.states.isSettled then
      some { run with complete := true, conductor := .collecting }
    else none
  | .collecting =>
    if run.isQuiet && run.aggregator.phase = .ended && run.saver = .stopped then
      some { run with conductor := .finalizing }
    else none
  | .finalizing => some (run.finalize accepted)
  | .done _ => none

/-- One step of a run, if it can be taken. -/
def step? (run : Run) : Step → Option Run
  | .runner name => do
    let runner ← run.find? name
    let (runner, scene) ← runner.step? run.handle? run.scene
    some { run.put runner with scene }
  | .overtaken name => do
    let runner ← run.find? name
    let (runner, scene) ← runner.overtaken? run.handle? run.scene
    some { run.put runner with scene }
  | .line name severity message => do
    let runner ← run.find? name
    if runner.phase = .attempting then
      some { run with scene := run.scene.send (.logged ⟨name, severity, message⟩) }
    else none
  | .ended name result => do
    let runner ← run.find? name
    (runner.ended? result).map run.put
  | .rested name => do
    let runner ← run.find? name
    (runner.rested? run.scene).map run.put
  | .cancel => some { run with scene := { run.scene with cancelled := true } }
  | .aggregator =>
    (run.aggregator.step? run.scene.events run.isQuiet run.complete).map fun aggregator =>
      { run with aggregator }
  | .tick =>
    if run.saver = .waiting then
      some { run with saver := if run.complete then .stopped else .viewing }
    else none
  | .saver accepted => run.saverStep? accepted
  | .conductor accepted => run.conductorStep? accepted

/-- Takes steps one after the other, if each can be taken in its turn. -/
def steps? (run : Run) : List Step → Option Run
  | [] => some run
  | step :: rest => (run.step? step).bind fun next => next.steps? rest

/-! ## The end of a run -/

/-- How many tasks failed or were given up because of a dependency. -/
def exitCode (run : Run) : Nat := run.aggregator.states.countIn TaskState.failures

def aborted (run : Run) : Nat := run.aggregator.states.countIn [.aborted]

/-- How the tasks ended that were not stopped. -/
def outcomes (run : Run) : KeyMap Outcome :=
  KeyMap.ofList (run.runners.filterMap fun runner =>
    runner.outcome?.map fun outcome => (runner.name, outcome))

def final? (run : Run) : Option FinalCheckpoint :=
  match run.conductor with
  | .done final => final
  | _ => none

end Run

end JobGraph
