import JobGraph.Task.Work

/-!
# A worker

A worker makes one attempt.  It reads a request from the first line of its input, makes the task and
goes through the lifecycle; a second thread waits for a call to abort.  The process ends with the
first thread that has a result: the lifecycle reports how the attempt went, and an abort that takes
place is reported instead.

* `Threads.step?` is one step of one of the two threads, so that every order of their steps can be
  spoken about.
* `Worker.serveWith` is the course of a worker with a registry of tasks that is called to abort at
  one moment at most, and `Worker.serve` that of the worker with the tasks of this library.
-/

namespace JobGraph

/-- The exit code after an abort. -/
def abortExitCode : Nat := 130

/-- The exit code of a worker that could not start an attempt. -/
def protocolExitCode : Nat := 2

namespace TaskHooks

/-- What the first thread of a worker does: its result is the exit code, or none if it leaves the
end to the other thread. -/
def lifecycleThread (task : TaskHooks) : Program (Option Nat) := do
  let failed ← task.lifecycle
  if (← Program.inspect).aborted then return none
  Program.report failed false
  return some (if failed then 1 else 0)

/-- What the second thread of a worker does once there is a call to abort. -/
def watcherThread (task : TaskHooks) : Program (Option Nat) := do
  if ← task.abort then
    Program.report true true
    return some abortExitCode
  else return none

end TaskHooks

/-! ## Two threads -/

/-- The threads of a worker. -/
inductive Thread where
  | lifecycle
  | watcher
  deriving DecidableEq, Repr

/-- A worker with the rest of what each thread has to do, and its exit code once it has ended. -/
structure Threads where
  context : Context
  lifecycle : Program (Option Nat)
  watcher : Program (Option Nat)
  exit : Option Nat

namespace Threads

/-- A worker before its first step, with a call to abort on its way. -/
def start (task : TaskHooks) (context : Context) : Threads :=
  ⟨context, task.lifecycleThread, task.watcherThread, none⟩

/-- The rest of what a thread has to do. -/
def program (threads : Threads) : Thread → Program (Option Nat)
  | .lifecycle => threads.lifecycle
  | .watcher => threads.watcher

/-- Replaces the rest of what a thread has to do. -/
def setProgram (threads : Threads) (program : Program (Option Nat)) : Thread → Threads
  | .lifecycle => { threads with lifecycle := program }
  | .watcher => { threads with watcher := program }

/-- One step of a thread: one operation, or the end of the process. -/
def step? (threads : Threads) (thread : Thread) : Option Threads :=
  if threads.exit.isSome then none
  else
    match threads.program thread with
    | .done none => none
    | .done (some code) => some { threads with exit := some code }
    | .act operation next =>
      let (context, answer) := threads.context.perform operation
      some ({ threads with context }.setProgram (next answer) thread)

/-- Steps of the threads in a given order; a thread that has no step is passed over. -/
def run (threads : Threads) : List Thread → Threads
  | [] => threads
  | thread :: rest => ((threads.step? thread).getD threads).run rest

end Threads

/-! ## The course of a worker -/

/-- What a worker process did. -/
structure WorkerEnd where
  /-- What it had sent when it was called to abort, or at its end. -/
  before : List OutputLine
  /-- What it sent after that. -/
  after : List OutputLine
  /-- The lines on its error stream. -/
  errors : List String
  exit : Nat
  /-- How long it ran, in nanoseconds. -/
  length : Nat
  files : List (Nat × String)

namespace Worker

/-- A worker that did not come to make an attempt. -/
def refused (error : Error) : WorkerEnd :=
  ⟨[], [], ["dagrun worker: " ++ error.message], protocolExitCode, 0, []⟩

/-- The attempt at a task, called to abort at a moment.  What the runtime puts on the error stream
about a hook that panics is left out. -/
def attempt (task : TaskHooks) (request : Request) (stop : Option Nat) : WorkerEnd :=
  let start := Context.ofRequest request
  let finish := fun (before : List OutputLine) (context : Context) (exit : Option Nat) =>
    WorkerEnd.mk before (context.sent.drop before.length) [] (exit.getD abortExitCode) context.clock
      context.files
  match stop with
  | none =>
    let (context, exit) := task.lifecycleThread.run start
    finish context.sent context exit
  | some moment =>
    match task.lifecycleThread.runUntil moment start with
    | (context, some exit) => finish context.sent context exit
    | (context, none) =>
      let files := context.files.filter fun file => file.1 ≤ moment
      let (final, exit) := task.watcherThread.run context
      finish context.sent { final with files } exit

/-- A worker that could not make the task of a request. -/
def unmade (request : Request) (failure : Failure) : WorkerEnd :=
  let name := request.name
  let shown := failure.oneLine
  let sent : List OutputLine :=
    [.frame (.log .critical s!"could not construct task '{name}': {shown}"),
      .frame (.finished true false)]
  ⟨sent, [], [], 1, 0, []⟩

/-- The course of a worker that has a request: `make` makes the task of a variant. -/
def ofRequest (make : String → Factory TaskHooks) (request : Request) (stop : Option Nat) :
    WorkerEnd :=
  match make request.variant request.parameters with
  | .ok task => attempt task request stop
  | .error failure => unmade request failure

/-- The request in the first line of the input. -/
def readRequest (line : String) : Except Error Request :=
  if Text.isAllBlank line then .error (.protocol .closedBeforeStart)
  else
    match ControlFrame.decode line with
    | .ok (.start request) => .ok request
    | .ok .abort => .error (.protocol .abortBeforeStart)
    | .error error => .error error

/-- Whether a line of the input is a call to abort; any other line is passed over. -/
def isAbort (line : String) : Bool :=
  match ControlFrame.decode line with
  | .ok .abort => true
  | _ => false

/-- The worker whose input holds the given lines, each with the moment at which it arrives, and
which gets a signal to end at a moment. -/
def serveWith (make : String → Factory TaskHooks) (lines : List (Nat × String))
    (signal : Option Nat) : WorkerEnd :=
  match readRequest ((lines.head?.map Prod.snd).getD "") with
  | .error error => refused error
  | .ok request =>
    let calls := (lines.tail.filter fun line => isAbort line.2).map Prod.fst ++ signal.toList
    let stop := calls.foldl (fun least moment =>
      some (least.elim moment (min moment))) (none : Option Nat)
    ofRequest make request stop

/-- The tasks of this library, where some files are there. -/
def makeWork (present : List String) (variant : String) : Factory TaskHooks := fun parameters =>
  (Work.registry.construct variant parameters).map fun work => work.hooks present

def serve (present : List String) : List (Nat × String) → Option Nat → WorkerEnd :=
  serveWith (makeWork present)

/-- How long after a file appears a watcher sends a signal, in nanoseconds. -/
def signalDelay : Nat := 150000000

/-- The worker that gets a signal to end some time after a file appears. -/
def serveWatched (present : List String) (lines : List (Nat × String)) (file : String) :
    WorkerEnd :=
  let undisturbed := serve present lines none
  match undisturbed.files.find? fun made => made.2 = file with
  | some (time, _) => serve present lines (some (time + signalDelay))
  | none => undisturbed

end Worker

namespace WorkerEnd

def lineText : OutputLine → String
  | .frame frame => frame.encode
  | .text line => line ++ "\n"

def output (worker : WorkerEnd) : String :=
  String.join ((worker.before ++ worker.after).map lineText)

/-- How long a worker takes to end after an abort. -/
def abortTime : Nat := 1000000

def toCommandRun (worker : WorkerEnd) : CommandRun :=
  let written := fun (lines : List OutputLine) => Text.encodeUtf8 (String.join (lines.map lineText))
  let finish := if worker.after.isEmpty then worker.length else worker.length + abortTime
  { chunks :=
      [⟨worker.length, .output, written worker.before⟩, ⟨finish, .output, written worker.after⟩,
        ⟨worker.length, .errors,
          Text.encodeUtf8 (String.join (worker.errors.map fun line => line ++ "\n"))⟩]
    files := worker.files
    finish := some (finish, .code worker.exit)
    taken := 1 }

end WorkerEnd

end JobGraph
