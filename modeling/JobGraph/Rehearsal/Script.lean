import JobGraph.Rehearsal.Performance

/-!
# Scripted attempts

Attempts that do what a script says: which lines they log at their start, how long they take, how
they end, and how they take a call to stop.
-/

namespace JobGraph

/-- How a scripted attempt ends. -/
inductive ScriptedEnd where
  | ok
  | fail
  /-- Stops, and counts as failed. -/
  | abort
  /-- Stops, and does not count as failed. -/
  | abortOk
  | protocolError
  | spawnError
  deriving DecidableEq, Repr

namespace ScriptedEnd

def result (task : String) (writes : List StoreWrite) : ScriptedEnd → AttemptResult
  | .ok => .report ⟨false, false, writes⟩
  | .fail => .report ⟨true, false, writes⟩
  | .abort => .report ⟨true, true, writes⟩
  | .abortOk => .report ⟨false, true, writes⟩
  | .protocolError => .error (.protocol (.other "scripted"))
  | .spawnError => .error (.spawn task "scripted spawn failure")

end ScriptedEnd

/-- What a script says about an attempt. -/
structure ScriptedAttempt where
  ending : ScriptedEnd
  /-- How long it takes, in nanoseconds. -/
  length : Nat
  writes : List StoreWrite
  lines : List (Severity × String)
  /-- How it ends when it is told to stop; none if it does not heed that. -/
  onStop : Option ScriptedEnd
  writesOnStop : List StoreWrite
  deriving DecidableEq, Repr

namespace ScriptedAttempt

def immediate : ScriptedAttempt := ⟨.ok, 0, [], [], some .abort, []⟩

/-- The performance of a scripted attempt at a task that is told to stop at a moment, if it is. -/
def performance (scripted : ScriptedAttempt) (task : String) (stopped : Option Nat) :
    Performance :=
  let happenings := scripted.lines.map fun (severity, message) =>
    (0, Happening.line severity message)
  let whole : Performance :=
    ⟨happenings, scripted.length, scripted.ending.result task scripted.writes⟩
  match stopped, scripted.onStop with
  | some moment, some ending =>
    if moment < scripted.length then
      ⟨happenings, moment, ending.result task scripted.writesOnStop⟩
    else whole
  | _, _ => whole

/-- The launcher that follows a script, which is given by task and number of the attempt. -/
def launcher (script : String → Nat → ScriptedAttempt) : Launcher := fun _ request stopped =>
  (script request.name request.attempt).performance request.name stopped

end ScriptedAttempt

/-- One line of a plan for the attempts at a task. -/
inductive PlannedStep where
  | failTimes (count : Nat)
  | spawnError
  deriving DecidableEq, Repr

/-- A plan for the attempts at each task: the failures and launch errors in their order, after which
every attempt succeeds; what successful attempts write; and how long every attempt takes. -/
structure AttemptPlan where
  steps : List (String × PlannedStep)
  writes : KeyMap (List StoreWrite)
  delay : Nat
  deriving DecidableEq, Repr

namespace AttemptPlan

/-- How the attempt with a number, counted from zero, ends by a list of steps. -/
def endAt : List PlannedStep → Nat → ScriptedEnd
  | [], _ => .ok
  | .failTimes count :: rest, number =>
    if number < count then .fail else endAt rest (number - count)
  | .spawnError :: rest, number => if number = 0 then .spawnError else endAt rest (number - 1)

/-- The script of a plan: an attempt that starts logs its number and can be stopped. -/
def script (plan : AttemptPlan) (task : String) (attempt : Nat) : ScriptedAttempt :=
  let steps := plan.steps.filterMap fun (name, step) => if name = task then some step else none
  let number := String.ofList (digitChars attempt)
  match endAt steps (attempt - 1) with
  | .spawnError => ⟨.spawnError, 0, [], [], none, []⟩
  | ending =>
    let writes := if ending = .ok then (plan.writes.find? task).getD [] else []
    ⟨ending, plan.delay, writes, [(.info, s!"attempt {number} started")], some .abort, []⟩

end AttemptPlan

end JobGraph
