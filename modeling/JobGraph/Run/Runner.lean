import JobGraph.Checkpoint.Restore
import JobGraph.Run.Event
import JobGraph.Run.Gate
import JobGraph.Worker.Frame
import JobGraph.Worker.Report

/-!
# Runners

A runner takes one task from `init` to the end of its way.  It waits for the task's dependencies in
their order, then makes attempts, each with a permit of the gate, until one is not a plain failure
or none is left.

* A `Scene` is what the runners of a run share.
* A `Phase` is the point at which a runner stands.  Sending an event, publishing a state, merging
  writes and giving a permit back are phases of their own, so that other runners may act between any
  two of them.
* `Runner.step?` is the next step that a runner can take by itself.  The end of an attempt, the end
  of a pause and a call to stop come from outside.  A runner that waits looks for a call to stop
  first; `Runner.overtaken?` is its step when the call comes right after that look.

The event of a change of state is sent before the state is published: whoever is woken by the new
state sends its own events later.
-/

namespace JobGraph

/-- What others see of a runner: the state that it published last, and whether it is gone. -/
structure Handle where
  state : TaskState
  gone : Bool
  deriving DecidableEq, Repr

/-- The state that a wait for a runner ends with: a terminal one, or the last one of a runner that
is gone. -/
def Handle.settled? (handle : Handle) : Option TaskState :=
  if handle.state.isTerminal || handle.gone then some handle.state else none

/-- What the runners of a run share. -/
structure Scene where
  gate : Gate
  store : Store
  /-- All events sent so far, in order. -/
  events : List Event
  /-- All attempts started so far, in order. -/
  launches : List Request
  cancelled : Bool
  deriving DecidableEq, Repr

namespace Scene

def send (scene : Scene) (event : Event) : Scene :=
  { scene with events := scene.events ++ [event] }

end Scene

/-- What a runner does after it has published a state. -/
inductive Next where
  | wait
  | launch
  | pause
  | leave
  deriving DecidableEq, Repr

/-- The point at which a runner stands. -/
inductive Phase where
  | ready
  /-- About to wait for the dependencies. -/
  | arrived
  /-- Waits for the first of the dependencies that are left. -/
  | waiting (rest : List String) (good : Bool)
  /-- About to ask for a permit. -/
  | asking
  /-- Waits for a permit. -/
  | queued
  /-- About to start an attempt. -/
  | launching
  /-- An attempt is under way. -/
  | attempting
  /-- An attempt has ended. -/
  | reported (result : AttemptResult)
  /-- About to send the event of a change of state. -/
  | announcing (target : TaskState) (next : Next)
  /-- About to publish a state. -/
  | publishing (target : TaskState) (next : Next)
  /-- About to give the permit back before a pause. -/
  | pausing
  /-- Pauses for that long. -/
  | resting (pause : Duration)
  /-- About to give back what it holds at its end. -/
  | leaving
  | gone
  deriving DecidableEq, Repr

/-- The phases in which a runner looks for a call to stop and then, before anyone can wake it again,
for what it waits for. -/
def Phase.looksTwice : Phase → Bool
  | .waiting rest _ => !rest.isEmpty
  | .asking | .queued => true
  | _ => false

/-- How long the pause lasts in which a runner stands. -/
def Phase.pause? : Phase → Option Duration
  | .resting pause => some pause
  | _ => none

/-- The phase that follows the publication of a state. -/
def Next.phase : Next → Phase
  | .wait => .arrived
  | .launch => .launching
  | .pause => .pausing
  | .leave => .leaving

/-- A runner of one task. -/
structure Runner where
  task : Task
  seed : Seed
  /-- The state published last. -/
  state : TaskState
  attempts : Nat
  phase : Phase
  deriving DecidableEq, Repr

/-- How a runner ended that was not stopped. -/
structure Outcome where
  state : TaskState
  attempts : Nat
  deriving DecidableEq, Repr

namespace Runner

def ofTask (task : Task) (seed : Seed) : Runner := ⟨task, seed, .init, 0, .ready⟩

def name (runner : Runner) : String := runner.task.name

def isGone (runner : Runner) : Bool := runner.phase = .gone

def handle (runner : Runner) : Handle := ⟨runner.state, runner.isGone⟩

/-- Whether the runner was told to stop and recorded that. -/
def wasStopped (runner : Runner) : Bool :=
  match runner.seed with
  | .restored _ => false
  | _ => runner.state = .aborted

/-- How the runner ended; none if it was stopped. -/
def outcome? (runner : Runner) : Option Outcome :=
  if runner.wasStopped then none else some ⟨runner.state, runner.attempts⟩

def announce (runner : Runner) (target : TaskState) (next : Next) : Runner :=
  { runner with phase := .announcing target next }

/-- Ends the runner because it was told to stop. -/
def abort (runner : Runner) : Runner := runner.announce .aborted .leave

def request (runner : Runner) (store : Store) : Request where
  name := runner.task.name
  variant := runner.task.variant
  parameters := runner.task.parameters
  dependsOn := runner.task.dependsOn
  attempt := runner.attempts
  isRestart := runner.seed = .fresh true || 1 < runner.attempts
  store := store

/-- What becomes of the task when all its dependencies have ended. -/
def afterDependencies (runner : Runner) (good : Bool) : Runner :=
  if !good then runner.announce .defaulted .leave
  else if runner.seed = .skip then runner.announce .skip .leave
  else { runner with phase := .asking }

def enterAttempt (runner : Runner) : Runner :=
  { runner with attempts := runner.attempts + 1 }.announce .running .launch

/-- What becomes of the task when an attempt has come back with a report. -/
def judge (runner : Runner) (report : Report) : Runner :=
  if report.aborted then runner.abort
  else if !report.failed then runner.announce .completed .leave
  else if runner.task.maxAttempts ≤ runner.attempts then runner.announce .failed .leave
  else runner.announce .pending .pause

/-- Stops waiting for a permit, and gives back one that was granted meanwhile. -/
def withdraw (runner : Runner) (scene : Scene) : Scene :=
  { scene with gate := (scene.gate.cancel runner.name).release runner.name }

/-- The next step of a runner, if it has one that does not come from outside. -/
def step? (handle? : String → Option Handle) (runner : Runner) (scene : Scene) :
    Option (Runner × Scene) :=
  match runner.phase with
  | .ready =>
    match runner.seed with
    | .restored state => some (runner.announce state .leave, scene)
    | _ =>
      if scene.cancelled then some (runner.abort, scene)
      else some (runner.announce .pending .wait, scene)
  | .arrived =>
    if scene.cancelled then some (runner.abort, scene)
    else some ({ runner with phase := .waiting runner.task.dependsOn true }, scene)
  | .waiting [] good => some (runner.afterDependencies good, scene)
  | .waiting (dependency :: rest) good =>
    if scene.cancelled then some (runner.abort, scene)
    else
      match handle? dependency with
      | none => some ({ runner with phase := .waiting rest false }, scene)
      | some handle =>
        handle.settled?.map fun state =>
          ({ runner with phase := .waiting rest (good && !state.blocksDependents) }, scene)
  | .asking =>
    if scene.cancelled then some (runner.abort, scene)
    else
      let gate := scene.gate.acquire runner.name
      if gate.holds runner.name then some (runner.enterAttempt, { scene with gate })
      else some ({ runner with phase := .queued }, { scene with gate })
  | .queued =>
    if scene.cancelled then some (runner.abort, runner.withdraw scene)
    else if scene.gate.holds runner.name then some (runner.enterAttempt, scene)
    else none
  | .launching =>
    some ({ runner with phase := .attempting },
      { scene with launches := scene.launches ++ [runner.request scene.store] })
  | .attempting => none
  | .reported (.report report) =>
    some (runner.judge report, { scene with store := scene.store.merge report.writes })
  | .reported (.error error) =>
    if scene.cancelled then some (runner.abort, scene)
    else
      some (runner.announce .failed .leave,
        scene.send (.logged ⟨runner.name, .critical, error.message⟩))
  | .announcing target next =>
    some ({ runner with phase := .publishing target next },
      scene.send (.moved ⟨runner.name, runner.state, target⟩))
  | .publishing target next =>
    some ({ runner with state := target, phase := next.phase }, scene)
  | .pausing =>
    some ({ runner with phase := .resting runner.task.backoff },
      { scene with gate := scene.gate.release runner.name })
  | .resting _ => if scene.cancelled then some (runner.abort, scene) else none
  | .leaving =>
    some ({ runner with phase := .gone },
      { scene with gate := scene.gate.release runner.name })
  | .gone => none

/-- The next step of a runner that looked for a call to stop just before one came. -/
def overtaken? (handle? : String → Option Handle) (runner : Runner) (scene : Scene) :
    Option (Runner × Scene) :=
  if runner.phase.looksTwice then
    (runner.step? handle? { scene with cancelled := false }).map fun (runner, after) =>
      (runner, { after with cancelled := scene.cancelled })
  else none

/-- The end of an attempt that is under way. -/
def ended? (runner : Runner) (result : AttemptResult) : Option Runner :=
  if runner.phase = .attempting then some { runner with phase := .reported result } else none

/-- The end of a pause; a call to stop that came in time goes first. -/
def rested? (runner : Runner) (scene : Scene) : Option Runner :=
  if runner.phase.pause?.isSome then
    some (if scene.cancelled then runner.abort else { runner with phase := .asking })
  else none

def seedLabel : Seed → String
  | .fresh true => "Fresh \x7b is_restart: true \x7d"
  | .fresh false => "Fresh \x7b is_restart: false \x7d"
  | .skip => "Skip"
  | .restored state => "Restored(" ++ state.label ++ ")"

def describe (runner : Runner) : String :=
  "ExecutionUnit \x7b name: " ++ Text.quoted runner.name ++ ", seed: " ++ seedLabel runner.seed
    ++ ", state: " ++ runner.state.label ++ ", attempts: "
    ++ String.ofList (digitChars runner.attempts) ++ " \x7d"

/-- The text of what runners share when the gate has no limit, in diagnostics. -/
def describeShared : String :=
  "UnitDeps { gate: ConcurrencyGate { semaphore: None, limit: 0 }, .. }"

/-- What is said of a runner that was stopped. -/
def stopMessage (runner : Runner) : String :=
  let name := runner.name
  s!"task '{name}' was aborted"

end Runner

end JobGraph
