import JobGraph.Shell.CommandRun
import JobGraph.Worker.Frame
import JobGraph.Worker.Report

/-!
# Reading the output of a worker

A worker may be any program.  Each line of its output is a write to the store, a result, or one line
of the task's log: a frame's message, plain text as it stands, or the complaint about a line that
has the mark of a frame but is none.  The last result counts, and an exit status other than success
makes the attempt failed whatever the result says.

The error stream is read at the same time, and each of its lines is one line of the log too.  Each
stream keeps its order, but which of the two gives the next line is not for the run to decide, and
neither are the words in which the reader of JSON refuses a line (`Telling`).
-/

namespace JobGraph

/-- What the log of an attempt owes to others than the run. -/
structure Telling where
  /-- What the reader of JSON has to say about a line that it refuses. -/
  reason : String → String
  /-- From which stream each next line comes. -/
  order : List Stream

namespace Telling

/-- The reader of JSON has nothing to say, and the output comes before the error stream. -/
def plain : Telling := ⟨fun _ => "", []⟩

/-- The lines of both streams, each next one from the stream that the order names if that has one.
The lines that the order does not reach follow, those of the output first. -/
def weave {α : Type} : List Stream → List α → List α → List α
  | .output :: order, line :: output, errors => line :: weave order output errors
  | .errors :: order, output, line :: errors => line :: weave order output errors
  | _ :: order, output, errors => weave order output errors
  | [], output, errors => output ++ errors

end Telling

/-- What a run has taken from the output of a worker. -/
structure Reading where
  lines : List (Severity × String)
  writes : List StoreWrite
  /-- Whether the attempt failed and whether it was aborted, by the last result. -/
  result : Option (Bool × Bool)
  deriving DecidableEq, Repr

namespace Reading

def empty : Reading := ⟨[], [], none⟩

def log (reading : Reading) (severity : Severity) (message : String) : Reading :=
  { reading with lines := reading.lines ++ [(severity, message)] }

/-- One more line of the output; `reason` is what the reader of JSON says about it if it is
refused. -/
def take (reason : String → String) (reading : Reading) (line : String) : Reading :=
  match OutputLine.decode line with
  | .ok (.text text) => reading.log .info text
  | .ok (.frame (.log severity message)) => reading.log severity message
  | .ok (.frame (.storeSet key value)) =>
    { reading with writes := reading.writes ++ [.set key value] }
  | .ok (.frame (.storeRemove key)) => { reading with writes := reading.writes ++ [.remove key] }
  | .ok (.frame (.finished failed aborted)) => { reading with result := some (failed, aborted) }
  | .error error => reading.log .error (error.message ++ reason (OutputLine.content line))

def ofLines (reason : String → String) (lines : List String) : Reading :=
  lines.foldl (take reason) empty

/-- Adds the lines of the error stream, each of which is an error, among those of the output. -/
def withErrors (reading : Reading) (order : List Stream) (lines : List String) : Reading :=
  { reading with
    lines := Telling.weave order reading.lines (lines.map fun line => (.error, line)) }

/-- Closes the reading when the worker has ended: a missing result is complained about. -/
def close (reading : Reading) (status : ExitStatus) : Reading :=
  match reading.result with
  | some _ => reading
  | none =>
    let shown := status.message
    reading.log .error s!"worker exited ({shown}) without reporting a result"

/-- The report on an attempt whose worker ended with a status. -/
def report (reading : Reading) (status : ExitStatus) (cancelled : Bool) : Report :=
  let (failed, aborted) := reading.result.getD (true, false)
  ⟨failed || !status.isSuccess, cancelled || aborted, reading.writes⟩

end Reading

end JobGraph
