import JobGraph.Rehearsal.Performance
import JobGraph.Worker.Reading
import JobGraph.Worker.Serve

/-!
# Attempts in processes

Each attempt is made in a process of its own, which gets the request on its input.  When the run is
told to stop, the process gets a call to abort, and it is killed if it has not ended after a time of
grace.
-/

namespace JobGraph

/-- A program that can make attempts. -/
inductive Executable where
  /-- The worker of this library. -/
  | worker
  /-- A shell with a command. -/
  | shell (command : String)
  /-- A program that cannot be started. -/
  | broken (problem : FileProblem)
  deriving DecidableEq, Repr

/-- What came of an attempt in a process. -/
structure ProcessAttempt where
  lines : List (Severity × String)
  files : List (Nat × String)
  length : Nat
  result : AttemptResult
  deriving DecidableEq, Repr

namespace Executable

/-- How many bytes a process can leave unread before whoever writes to it has to wait. -/
def pipeCapacity : Nat := 65536

/-- How long a process takes at least. -/
def startTime : Nat := 1000000

def killSignal : Nat := 9

/-- A name as one word of a shell command. -/
def shellWord (name : String) : String := "'" ++ name.replace "'" "'\\''" ++ "'"

/-- The names of programs that are run like commands of a shell. -/
def plainPrograms : List String :=
  ["true", "false", "echo", "printf", "cat", "sleep", "env", "touch", "kill", "test"]

/-- The directories of the programs that are there. -/
def systemPlaces : List String := ["/bin/", "/usr/bin/"]

def ofCommand (program : String) (arguments : List String) : Executable :=
  let name := (program.splitOn "/").getLast?.getD program
  let isPlace := program.contains '/' && systemPlaces.all fun place => !program.startsWith place
  if name.isEmpty || program = "." || program = ".." then
    .broken (if program.isEmpty then .notFound else .permissionDenied)
  else if isPlace then .broken .notFound
  else
    match name, arguments with
    | "sh", "-c" :: command :: _ => .shell command
    | "dash", "-c" :: command :: _ => .shell command
    | _, _ =>
      if plainPrograms.contains name then
        .shell (String.intercalate " " (name :: arguments.map shellWord))
      else .broken .notFound

/-- What a program does that gets lines on its input, each at a moment, while the input stays
open. -/
def run (present : List String) (lines : List (Nat × String)) : Executable → CommandRun
  | .worker => (Worker.serve present lines none).toCommandRun
  | .shell command => Shell.run command present ⟨lines, true⟩
  | .broken _ => ⟨[], [], none, 0⟩

/-- What comes of an attempt whose process has run.  Both streams have ended before a missing result
is complained about. -/
def conclude (telling : Telling) (run : CommandRun) (cancelled : Bool) : ProcessAttempt :=
  let (finish, status) := run.finish.getD (0, .signal killSignal)
  let output := Reading.ofLines telling.reason (Text.lines (run.bytes .output))
  let reading := (output.withErrors telling.order (Text.lines (run.bytes .errors))).close status
  ⟨reading.lines, run.files, finish, .report (reading.report status cancelled)⟩

/-- A control frame as a line without its end. -/
def frameLine (frame : ControlFrame) : String :=
  String.ofList (frame.encode.toList.filter (· ≠ '\n'))

/-- The attempt that a program makes, told plainly: the time of grace, the files at the start, the
request, and the moment at which it is told to stop, if it is. -/
def attempt (program : Executable) (grace : Nat) (present : List String) (request : Request)
    (stop : Option Nat) : ProcessAttempt :=
  match program with
  | .broken problem => ⟨[], [], 0, .error (.spawn request.name problem.message)⟩
  | _ =>
    let start := frameLine (.start request)
    let whole := program.run present [(0, start)]
    if pipeCapacity < start.utf8ByteSize ∧ whole.taken = 0 then
      let reading := Reading.ofLines Telling.plain.reason (Text.lines (whole.bytes .output))
      ⟨reading.lines, whole.files, (whole.finish.map Prod.fst).getD 0,
        .error (.file .brokenPipe)⟩
    else
      match stop with
      | none => conclude .plain whole false
      | some moment =>
        if whole.finish.any fun finish => finish.1 + startTime ≤ moment then
          conclude .plain whole false
        else
          let told := program.run present [(0, start), (moment, frameLine .abort)]
          if told.finish.any fun finish => finish.1 < moment + grace then conclude .plain told true
          else conclude .plain (told.stoppedAt (moment + grace) killSignal) true

/-- How long a worker takes before it makes its attempt. -/
def workerStart : Nat := 5000000

/-- The launcher that makes every attempt in a process. -/
def launcher (program : Executable) (grace : Nat) : Launcher := fun present request stop =>
  let made := program.attempt grace present request (stop.map (· - workerStart))
  let finish := made.length + workerStart
  ⟨made.files.map (fun (moment, file) => (moment + workerStart, .file file))
    ++ made.lines.map (fun (severity, message) => (finish, .line severity message)),
    finish, made.result⟩

end Executable

end JobGraph
