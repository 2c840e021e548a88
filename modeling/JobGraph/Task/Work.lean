import JobGraph.Shell.Interpreter
import JobGraph.Task.Lifecycle
import JobGraph.Task.Parameters
import JobGraph.Task.Registry

/-!
# Kinds of work

The variants of tasks that every job can use: run a shell command, wait, fail, fail for some
attempts, and write to the shared store.
-/

namespace JobGraph

open Json (Value)

/-- What a task does. -/
inductive Work where
  | shell (command : String)
  | sleep (seconds : Binary64)
  | fail (message : String)
  | flaky (succeedOn : Nat)
  | store (set : KeyMap Value) (require : List String)
  deriving Repr

/-- The kinds of work. -/
inductive WorkKind where
  | shell
  | sleep
  | fail
  | flaky
  | store
  deriving DecidableEq, Repr

namespace WorkKind

def all : List WorkKind := [.shell, .sleep, .fail, .flaky, .store]

/-- The variant that stands for a kind of work. -/
def name : WorkKind → String
  | .shell => "Shell"
  | .sleep => "Sleep"
  | .fail => "Fail"
  | .flaky => "Flaky"
  | .store => "Store"

def ofName? (name : String) : Option WorkKind := all.find? fun kind => kind.name == name

/-- The names of the parameters of a kind of work. -/
def parameterNames : WorkKind → List String
  | .shell => ["cmd"]
  | .sleep => ["seconds"]
  | .fail => ["message"]
  | .flaky => ["succeed_on_attempt"]
  | .store => ["set", "require"]

def checkParameter (kind : WorkKind) (name : String) (value : Value) :
    Except ParameterProblem Unit :=
  match kind with
  | .shell | .fail => (Parameters.text value).map fun _ => ()
  | .sleep => (Parameters.number value).map fun _ => ()
  | .flaky => (Parameters.count value).map fun _ => ()
  | .store =>
    if name = "set" then (Parameters.map value).map fun _ => ()
    else (Parameters.texts value).map fun _ => ()

end WorkKind

namespace Work

/-- What `Fail` says when it is given no message. -/
def standardFailure : String := "task failed on purpose"

def ofParameters (kind : WorkKind) (bag : Value) : Except ParameterProblem Work := do
  let known := kind.parameterNames
  let found ← Parameters.fields kind.name known kind.checkParameter bag
  match kind with
  | .shell => return .shell (← Parameters.required kind.name known bag Parameters.text found "cmd")
  | .sleep => return .sleep (← Parameters.optional Parameters.number .zero found "seconds")
  | .fail => return .fail (← Parameters.optional Parameters.text standardFailure found "message")
  | .flaky =>
    return .flaky
      (← Parameters.required kind.name known bag Parameters.count found "succeed_on_attempt")
  | .store =>
    return .store (← Parameters.optional Parameters.map .empty found "set")
      (← Parameters.optional Parameters.texts [] found "require")

def factory (kind : WorkKind) : Factory Work := fun parameters =>
  match ofParameters kind parameters with
  | .ok work => .ok work
  | .error problem =>
    .error ((Failure.ofText problem.message).within "could not deserialize task parameters")

def registry : Registry Work :=
  ⟨KeyMap.ofList (WorkKind.all.map fun kind => (kind.name, factory kind))⟩

/-! ## Hooks -/

def bail (message : String) : Hook := return .failed (.ofText message)

/-- The severity under which a line of a command is logged. -/
def streamSeverity : Stream → Severity
  | .output => .info
  | .errors => .warning

/-- Logs the lines of a command as they come. -/
def forwardLines : Nat → List TimedLine → Program Nat
  | now, [] => return now
  | now, line :: rest => do
    .pause (line.time - now)
    .log (streamSeverity line.stream) line.text
    forwardLines (max now line.time) rest

/-- A time that no attempt lives to see. -/
def never : Nat := twoTo 200

def runCommand (present : List String) (command : String) : Hook := do
  .log .debug s!"running shell command: {command}"
  let run := Shell.run command present ⟨[], false⟩
  let _ ← Program.perform (.startCommand run)
  let now ← forwardLines 0 run.lines
  let (finish, status) := run.finish.getD (never, .code 0)
  .pause (finish - now)
  let _ ← Program.perform .endCommand
  if status.isSuccess then return .ok
  else
    let shown := status.message
    bail ("`" ++ command ++ "` exited with " ++ shown)

def stopCommand (command : String) : Hook := do
  if (← Program.inspect).commandRuns then
    .log .warning s!"killing shell command: {command}"
  return .ok

/-- The first number of seconds that is too far ahead for a clock. -/
def clockBound : Nat := twoTo 63

def wait (seconds : Binary64) : Hook := do
  let shown := seconds.message
  if !seconds.isFinite || seconds.isBelowZero then
    bail s!"seconds must be a non-negative number (got {shown})"
  else
    match Duration.ofSeconds? seconds with
    | none =>
      return .panicked
        (some "cannot convert float seconds to Duration: value is either too big or NaN")
    | some duration =>
      if clockBound ≤ duration.parts.1 then
        return .panicked (some "overflow when adding duration to instant")
      else if 0 < duration.nanoseconds && (← Program.inspect).aborted then return .ok
      else
        .pause duration.nanoseconds
        .log .debug s!"slept {shown}s"
        return .ok

def beFlaky (succeedOn : Nat) : Hook := do
  let attempt := (← Program.inspect).attempt
  if attempt < succeedOn then
    .log .warning s!"attempt {attempt} of a flaky task, succeeding on {succeedOn}"
    .fail
  return .ok

def showKeys : List String → Program Unit
  | [] => return ()
  | key :: rest => do
    match ← Program.get key with
    | some value =>
      let shown := value.compact
      .log .info s!"{key} = {shown}"
    | none => pure ()
    showKeys rest

def setKeys : List (String × Value) → Program Unit
  | [] => return ()
  | (key, value) :: rest => do
    .set key value
    setKeys rest

/-- The keys of a list that the store lacks. -/
def missingKeys : List String → Program (List String)
  | [] => return []
  | key :: rest => do
    let present ← Program.contains key
    let others ← missingKeys rest
    return if present then others else key :: others

def useStore (set : KeyMap Value) (require : List String) : Hook := do
  let missing ← missingKeys require
  if missing.isEmpty then
    showKeys require
    setKeys set.entries
    return .ok
  else
    bail ("missing shared store keys: " ++ String.intercalate ", " missing)

/-- The hooks of work; `present` are the files that commands find. -/
def hooks (present : List String) (work : Work) : TaskHooks where
  onCreate := .nothing
  onRestart := .nothing
  run :=
    match work with
    | .shell command => runCommand present command
    | .sleep seconds => wait seconds
    | .fail message => bail message
    | .flaky succeedOn => beFlaky succeedOn
    | .store set require => useStore set require
  onSuccess := .nothing
  onFailure := .nothing
  onDestroy := .nothing
  onAbort :=
    match work with
    | .shell command => stopCommand command
    | .sleep _ => do
      .log .warning "abort requested"
      return .ok
    | _ => .nothing

end Work

end JobGraph
