import JobGraph.Number.Layout
import JobGraph.Text.Quoted

/-!
# Errors

Each error is a cause with what it is about; `Error.message` gives its wording.  Where the program
passes on the words of a reader of another library (why a text is no JSON or no TOML, behind
"malformed frame from worker", "TOML parsing error" and the like), these are not part of it.
-/

namespace JobGraph

/-- Whether a setting has to be above zero, or may also be zero. -/
inductive Bound where
  | positive
  | nonNegative
  deriving DecidableEq, Repr

/-- A variant or a set of parameters that no task can be made of. -/
inductive VariantProblem where
  | unknownVariant (task variant : String)
  | invalidParameters (task reason : String)
  deriving DecidableEq, Repr

/-- What is wrong with a job definition as a whole. -/
inductive JobProblem where
  | noTasks
  | badName (name : String)
  | badSetting (field : String) (bound : Bound) (value : Binary64)
  | longSetting (field : String) (value : Binary64)
  | noVariant (task : String)
  | noAttempts (task : String)
  | badBackoff (task : String) (value : Binary64)
  | longBackoff (task : String) (value : Binary64)
  | repeatedVariant (variant : String)
  | severalVariants (problems : List VariantProblem)
  deriving DecidableEq, Repr

/-- Why the text of a checkpoint is refused. -/
inductive CheckpointProblem where
  | envelope
  | format (found : String)
  | version (found : Nat)
  | digest
  | snapshot
  | repeatedTask
  deriving DecidableEq, Repr

/-- How an operation on files failed. -/
inductive FileProblem where
  | notFound
  | notADirectory
  | isADirectory
  | alreadyExists
  | directoryNotEmpty
  | invalidData
  | brokenPipe
  | permissionDenied
  | resourceBusy
  | nameTooLong
  | invalidInput
  deriving DecidableEq, Repr

/-- What is wrong in the talk with a worker. -/
inductive ProtocolProblem where
  | workerFrame
  | controlFrame
  | closedBeforeStart
  | abortBeforeStart
  | other (text : String)
  deriving DecidableEq, Repr

/-- Everything that can go wrong. -/
inductive Error where
  | job (problem : JobProblem)
  | jobText
  | dataText
  | file (problem : FileProblem)
  | unknownDependency (task dependency : String)
  | selfDependency (task : String)
  | duplicateTask (task : String)
  | cycle (task : String)
  | variant (problem : VariantProblem)
  | taskNotFound (task : String)
  | checkpointMismatch (missing unknown : List String)
  | checkpointCorrupt (problem : CheckpointProblem)
  | noCheckpoint (location : String)
  | spawn (task source : String)
  | protocol (problem : ProtocolProblem)
  | other (text : String)
  deriving DecidableEq, Repr

def VariantProblem.message : VariantProblem → String
  | .unknownVariant task variant => s!"task '{task}' uses unknown variant '{variant}'"
  | .invalidParameters task reason => s!"invalid parameters for task '{task}': {reason}"

def Bound.word : Bound → String
  | .positive => "positive"
  | .nonNegative => "non-negative"

def JobProblem.message : JobProblem → String
  | .noTasks => "job definition must contain at least one [task.<name>] section"
  | .badName name =>
    let shown := Text.quoted name
    s!"[config].name must be a non-empty file name (got {shown})"
  | .badSetting field bound value =>
    let word := bound.word
    let shown := value.message
    s!"[config].{field} must be a {word} number of seconds (got {shown})"
  | .longSetting field value =>
    let shown := value.message
    s!"[config].{field} is too large (got {shown} seconds)"
  | .noVariant task => s!"task '{task}' must name a variant"
  | .noAttempts task => s!"task '{task}': max_attempts must be >= 1 (got 0)"
  | .badBackoff task value =>
    let shown := value.message
    s!"task '{task}': backoff must be a non-negative number of seconds (got {shown})"
  | .longBackoff task value =>
    let shown := value.message
    s!"task '{task}': backoff is too large (got {shown} seconds)"
  | .repeatedVariant variant => s!"task variant '{variant}' is registered twice"
  | .severalVariants problems =>
    let count := problems.length
    let lines := String.join (problems.map fun problem => "\n  - " ++ problem.message)
    s!"errors exist in the job definition for {count} tasks:{lines}"

def CheckpointProblem.message : CheckpointProblem → String
  | .envelope => "unreadable envelope"
  | .format found => s!"unexpected format '{found}'"
  | .version found => s!"unsupported version {found} (expected 1)"
  | .digest => "digest does not match contents"
  | .snapshot => "malformed snapshot"
  | .repeatedTask => "a task appears in more than one state"

def FileProblem.message : FileProblem → String
  | .notFound => "No such file or directory (os error 2)"
  | .notADirectory => "Not a directory (os error 20)"
  | .isADirectory => "Is a directory (os error 21)"
  | .alreadyExists => "File exists (os error 17)"
  | .directoryNotEmpty => "Directory not empty (os error 39)"
  | .invalidData => "stream did not contain valid UTF-8"
  | .brokenPipe => "Broken pipe (os error 32)"
  | .permissionDenied => "Permission denied (os error 13)"
  | .resourceBusy => "Device or resource busy (os error 16)"
  | .nameTooLong => "File name too long (os error 36)"
  | .invalidInput => "file name contained an unexpected NUL byte"

def ProtocolProblem.message : ProtocolProblem → String
  | .workerFrame => "malformed frame from worker"
  | .controlFrame => "malformed control frame from orchestrator"
  | .closedBeforeStart => "stdin closed before a start frame arrived"
  | .abortBeforeStart => "received abort before start"
  | .other text => text

/-- A list of names after its heading; nothing when there are no names. -/
def namesClause (heading : String) (names : List String) : String :=
  if names.isEmpty then "" else "; " ++ heading ++ ": " ++ String.intercalate ", " names

def Error.message : Error → String
  | .job problem => "Configuration error: " ++ problem.message
  | .jobText => "TOML parsing error"
  | .dataText => "JSON error"
  | .file problem => "IO error: " ++ problem.message
  | .unknownDependency task dependency =>
    s!"task '{task}' has unknown dependency '{dependency}'"
  | .selfDependency task => s!"task '{task}' cannot depend on itself"
  | .duplicateTask task => s!"task '{task}' is defined more than once"
  | .cycle task =>
    s!"Cycle detected in DAG: cycle detected in task graph involving task '{task}'"
  | .variant problem => problem.message
  | .taskNotFound task => s!"Task not found: {task}"
  | .checkpointMismatch missing unknown =>
    "task names in checkpoint do not match the job definition"
      ++ namesClause "missing in checkpoint" missing
      ++ namesClause "unknown in checkpoint" unknown
  | .checkpointCorrupt problem => "checkpoint is unreadable: " ++ problem.message
  | .noCheckpoint location => "no checkpoint found at " ++ Text.quoted location
  | .spawn task source => s!"failed to spawn process for task '{task}': {source}"
  | .protocol problem => "worker protocol error: " ++ problem.message
  | .other text => text

end JobGraph
