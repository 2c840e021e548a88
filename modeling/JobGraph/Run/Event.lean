import JobGraph.Run.StateMap
import JobGraph.Task.Severity

/-!
# Events of a run

Everything that happens to the tasks of a run goes through one queue of events: changes of state and
lines of their logs.
-/

namespace JobGraph

/-- A line of a task's log. -/
structure LogLine where
  task : String
  severity : Severity
  message : String
  deriving DecidableEq, Repr

/-- An event of a run. -/
inductive Event where
  | moved (transition : Transition)
  | logged (line : LogLine)
  deriving DecidableEq, Repr

namespace Event

def transition? : Event → Option Transition
  | .moved transition => some transition
  | .logged _ => none

/-- The line of a log that an event tells. -/
def line? : Event → Option LogLine
  | .moved _ => none
  | .logged line => some line

end Event

end JobGraph
