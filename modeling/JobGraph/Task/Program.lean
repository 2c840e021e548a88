import JobGraph.Shell.CommandRun
import JobGraph.Task.Failure
import JobGraph.Worker.Frame

/-!
# Programs of tasks

What a task does is a program: one operation on its context after the other, each chosen in the
light of the answers so far, and a result at the end.

* `Context` is what a task sees and changes during an attempt.
* `Operation` is the vocabulary, with the type of answer of each operation.
* `Program.run` carries out a whole program; `Program.runUntil` stops at a moment in time.
-/

namespace JobGraph

/-- What a task sees and changes during an attempt. -/
structure Context where
  name : String
  variant : String
  dependsOn : List String
  attempt : Nat
  isRestart : Bool
  store : Store
  /-- What the task has sent so far: frames and lines of plain output. -/
  sent : List OutputLine
  failed : Bool
  aborted : Bool
  finished : Bool
  /-- Nanoseconds since the start of the attempt. -/
  clock : Nat
  /-- Whether a shell command of the task runs or has not been waited for. -/
  commandRuns : Bool
  /-- Files that commands made, each with the time at which it appears. -/
  files : List (Nat × String)
  /-- What a watched task wrote down about its course. -/
  notes : List Json.Value

namespace Context

def ofRequest (request : Request) : Context where
  name := request.name
  variant := request.variant
  dependsOn := request.dependsOn
  attempt := request.attempt
  isRestart := request.isRestart
  store := request.store
  sent := []
  failed := false
  aborted := false
  finished := false
  clock := 0
  commandRuns := false
  files := []
  notes := []

def send (context : Context) (frame : WorkerFrame) : Context :=
  { context with sent := context.sent ++ [.frame frame] }

def log (context : Context) (severity : Severity) (message : String) : Context :=
  context.send (.log severity message)

def frames (context : Context) : List WorkerFrame :=
  context.sent.filterMap fun line =>
    match line with
    | .frame frame => some frame
    | .text _ => none

end Context

/-- What a task can do in one step. -/
inductive Operation where
  | log (severity : Severity) (message : String)
  | print (line : String)
  | set (key : String) (value : Json.Value)
  | remove (key : String)
  | get (key : String)
  | contains (key : String)
  | keys
  | inspect
  | fail
  | pause (nanoseconds : Nat)
  /-- Asks whether the lifecycle has finished. -/
  | isFinished
  /-- Begins an abort; the answer is whether none had begun before. -/
  | claimAbort
  | finish
  /-- Sends the result of the attempt. -/
  | report (failed aborted : Bool)
  | startCommand (run : CommandRun)
  | endCommand
  | note (entry : Json.Value)

/-- The type of answer to an operation. -/
def Operation.Answer : Operation → Type
  | .remove _ | .get _ => Option Json.Value
  | .contains _ | .isFinished | .claimAbort => Bool
  | .keys => List String
  | .inspect => Context
  | _ => Unit

def Context.perform (context : Context) : (operation : Operation) → Context × operation.Answer
  | .log severity message => (context.log severity message, ())
  | .print line => ({ context with sent := context.sent ++ [.text line] }, ())
  | .set key value =>
    ({ context with store := context.store.insert key value }.send (.storeSet key value), ())
  | .remove key =>
    ({ context with store := context.store.erase key }.send (.storeRemove key),
      context.store.find? key)
  | .get key => (context, context.store.find? key)
  | .contains key => (context, context.store.contains key)
  | .keys => (context, context.store.keys)
  | .inspect => (context, context)
  | .fail => ({ context with failed := true }, ())
  | .pause nanoseconds => ({ context with clock := context.clock + nanoseconds }, ())
  | .isFinished => (context, context.finished)
  | .claimAbort => ({ context with aborted := true }, !context.aborted)
  | .finish => ({ context with finished := true }, ())
  | .report failed aborted => (context.send (.finished failed aborted), ())
  | .startCommand run =>
    let files := run.files.map fun (time, file) => (context.clock + time, file)
    ({ context with commandRuns := true, files := context.files ++ files }, ())
  | .endCommand => ({ context with commandRuns := false }, ())
  | .note entry => ({ context with notes := context.notes ++ [entry] }, ())

/-- A program with a result. -/
inductive Program (α : Type) where
  | done (result : α)
  | act (operation : Operation) (next : operation.Answer → Program α)

namespace Program

variable {α β : Type}

def perform (operation : Operation) : Program operation.Answer := .act operation .done

def inspect : Program Context := perform .inspect

def report (failed aborted : Bool) : Program Unit := perform (.report failed aborted)

def get (key : String) : Program (Option Json.Value) := perform (.get key)

def remove (key : String) : Program (Option Json.Value) := perform (.remove key)

def contains (key : String) : Program Bool := perform (.contains key)

def keys : Program (List String) := perform .keys

def log (severity : Severity) (message : String) : Program Unit := perform (.log severity message)

def set (key : String) (value : Json.Value) : Program Unit := perform (.set key value)

def fail : Program Unit := perform .fail

def pause (nanoseconds : Nat) : Program Unit := perform (.pause nanoseconds)

def note (entry : Json.Value) : Program Unit := perform (.note entry)

/-- Continues with a program that depends on the result. -/
def bind : Program α → (α → Program β) → Program β
  | .done result, continuation => continuation result
  | .act operation next, continuation =>
    .act operation fun answer => (next answer).bind continuation

instance : Monad Program where
  pure := .done
  bind := bind

/-- An abort begins once, and only while the lifecycle has not finished.  Both flags are looked at
one after the other. -/
def beginAbort : Program Bool := do
  let finished : Bool ← perform .isFinished
  if finished then return false
  perform .claimAbort

def run : Program α → Context → Context × α
  | .done result, context => (context, result)
  | .act operation next, context =>
    let (context, answer) := context.perform operation
    (next answer).run context

def timeOf : Operation → Nat
  | .pause nanoseconds => nanoseconds
  | _ => 0

/-- Carries out a program until a moment: the context at that moment if the program is still in an
operation that ends later, and its end otherwise. -/
def runUntil (moment : Nat) : Program α → Context → Context × Option α
  | .done result, context => (context, some result)
  | .act operation next, context =>
    if moment < context.clock + timeOf operation then ({ context with clock := moment }, none)
    else
      let (context, answer) := context.perform operation
      (next answer).runUntil moment context

end Program

end JobGraph
