import JobGraph.Text.Bytes

/-!
# What a command does

A command puts out bytes on two streams, makes files, and ends with an exit code or by a signal.
All of this has its time, counted in nanoseconds from the start of the command, so that a command
can be stopped before it has done everything.
-/

namespace JobGraph

/-- How a command ended. -/
inductive ExitStatus where
  | code (code : Nat)
  | signal (signal : Nat)
  deriving DecidableEq, Repr

namespace ExitStatus

def isSuccess : ExitStatus → Bool
  | .code 0 => true
  | _ => false

def signalNames : List (Nat × String) :=
  [(1, "SIGHUP"), (2, "SIGINT"), (3, "SIGQUIT"), (4, "SIGILL"), (5, "SIGTRAP"), (6, "SIGABRT"),
    (7, "SIGBUS"), (8, "SIGFPE"), (9, "SIGKILL"), (10, "SIGUSR1"), (11, "SIGSEGV"),
    (12, "SIGUSR2"), (13, "SIGPIPE"), (14, "SIGALRM"), (15, "SIGTERM"), (16, "SIGSTKFLT"),
    (17, "SIGCHLD"), (18, "SIGCONT"), (19, "SIGSTOP"), (20, "SIGTSTP"), (21, "SIGTTIN"),
    (22, "SIGTTOU"), (23, "SIGURG"), (24, "SIGXCPU"), (25, "SIGXFSZ"), (26, "SIGVTALRM"),
    (27, "SIGPROF"), (28, "SIGWINCH"), (29, "SIGIO"), (30, "SIGPWR"), (31, "SIGSYS")]

def signalName? (signal : Nat) : Option String :=
  (signalNames.find? fun entry => entry.1 == signal).map Prod.snd

def message : ExitStatus → String
  | .code number => s!"exit status: {number}"
  | .signal number =>
    match signalName? number with
    | some name => s!"signal: {number} ({name})"
    | none => s!"signal: {number}"

end ExitStatus

/-- The streams of a command. -/
inductive Stream where
  | output
  | errors
  deriving DecidableEq, Repr

/-- Bytes that a command puts out at one time. -/
structure Chunk where
  time : Nat
  stream : Stream
  bytes : List UInt8
  deriving DecidableEq, Repr

/-- What a command does from its start to its end.  Without an end it runs until it is stopped. -/
structure CommandRun where
  chunks : List Chunk
  files : List (Nat × String)
  finish : Option (Nat × ExitStatus)
  /-- How many lines of its input it took. -/
  taken : Nat
  deriving DecidableEq, Repr

/-- A line of output with the time at which it was complete. -/
structure TimedLine where
  time : Nat
  stream : Stream
  text : String
  deriving DecidableEq, Repr

namespace CommandRun

/-- A command that is stopped by a signal at a time, unless it has ended by then. -/
def stoppedAt (run : CommandRun) (time signal : Nat) : CommandRun :=
  match run.finish with
  | some (finish, _) =>
    if finish ≤ time then run else stop
  | none => stop
where
  stop : CommandRun :=
    { chunks := run.chunks.filter fun chunk => chunk.time ≤ time
      files := run.files.filter fun file => file.1 ≤ time
      finish := some (time, .signal signal)
      taken := run.taken }

def bytes (run : CommandRun) (stream : Stream) : List UInt8 :=
  (run.chunks.filter fun chunk => chunk.stream == stream).flatMap Chunk.bytes

/-- The bytes of a stream, each with its time. -/
def timedBytes (run : CommandRun) (stream : Stream) : List (Nat × UInt8) :=
  (run.chunks.filter fun chunk => chunk.stream == stream).flatMap fun chunk =>
    chunk.bytes.map fun byte => (chunk.time, byte)

/-- Lines of timed bytes.  The line begun so far is given backwards; what stands after the last end
of a line is a line of its own, complete at the given time.  A line that is not text ends the
reading. -/
def readLines (stream : Stream) (finish : Nat) (line : List UInt8) :
    List (Nat × UInt8) → List TimedLine
  | [] =>
    if line.isEmpty then []
    else
      match Text.decodeUtf8? line.reverse with
      | some text => [⟨finish, stream, text⟩]
      | none => []
  | (time, byte) :: rest =>
    if byte = 10 then
      match Text.decodeUtf8? (Text.dropReturn line.reverse) with
      | some text => ⟨time, stream, text⟩ :: readLines stream finish [] rest
      | none => []
    else readLines stream finish (byte :: line) rest

/-- Puts a line after all lines that are complete at the same time or before. -/
def insertLine (line : TimedLine) : List TimedLine → List TimedLine
  | [] => [line]
  | current :: rest =>
    if current.time ≤ line.time then current :: insertLine line rest else line :: current :: rest

def linesOf (run : CommandRun) (stream : Stream) : List TimedLine :=
  readLines stream ((run.finish.map Prod.fst).getD 0) [] (run.timedBytes stream)

/-- The lines of both streams by the time at which they were complete. -/
def lines (run : CommandRun) : List TimedLine :=
  (run.linesOf .errors).foldl (fun lines line => insertLine line lines) (run.linesOf .output)

end CommandRun

end JobGraph
