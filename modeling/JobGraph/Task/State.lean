/-!
# Task states

A task waits in `init` and `pending`, is `running` during an attempt, and ends in one of five
terminal states.  A dependency that ended in `failed`, `defaulted` or `aborted` blocks the tasks
that depend on it.
-/

namespace JobGraph

/-- The state of a task. -/
inductive TaskState where
  | init
  | pending
  | running
  | completed
  | failed
  | defaulted
  | aborted
  | skip
  deriving DecidableEq, Repr, Inhabited

namespace TaskState

/-- All states, in the order in which reports list them. -/
def all : List TaskState :=
  [.init, .pending, .running, .completed, .failed, .defaulted, .aborted, .skip]

/-- The states of tasks that have not ended. -/
def active : List TaskState := [.init, .pending, .running]

/-- The states that count as failures of a run. -/
def failures : List TaskState := [.failed, .defaulted]

def isTerminal (state : TaskState) : Bool := !active.contains state

/-- Whether a task that ended in this state keeps its dependents from running. -/
def blocksDependents : TaskState → Bool
  | .failed | .defaulted | .aborted => true
  | _ => false

/-- Whether a resumed run must run a task saved in this state again. -/
def needsRerun : TaskState → Bool
  | .completed | .skip => false
  | _ => true

/-- The one-letter code of a state in summaries. -/
def code : TaskState → Char
  | .init => '_'
  | .pending => 'P'
  | .running => 'R'
  | .completed => 'C'
  | .failed => 'F'
  | .defaulted => 'D'
  | .aborted => 'A'
  | .skip => 'S'

/-- The name of a state in data and messages. -/
def name : TaskState → String
  | .init => "INIT"
  | .pending => "PENDING"
  | .running => "RUNNING"
  | .completed => "COMPLETED"
  | .failed => "FAILED"
  | .defaulted => "DEFAULTED"
  | .aborted => "ABORTED"
  | .skip => "SKIP"

/-- The name of a state in diagnostic texts. -/
def label : TaskState → String
  | .init => "Init"
  | .pending => "Pending"
  | .running => "Running"
  | .completed => "Completed"
  | .failed => "Failed"
  | .defaulted => "Defaulted"
  | .aborted => "Aborted"
  | .skip => "Skip"

def ofName? (name : String) : Option TaskState := all.find? fun state => state.name == name

theorem ofName?_name (state : TaskState) : ofName? state.name = some state := by
  cases state <;> rfl

theorem mem_all (state : TaskState) : state ∈ all := by
  cases state <;> decide

end TaskState

end JobGraph
