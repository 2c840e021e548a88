import JobGraph.Graph.Basic
import JobGraph.Job.Definition
import JobGraph.Text.Blank
import JobGraph.Text.Bytes
import JobGraph.Toml.Reader

/-!
# Jobs

A job is settings and a graph of tasks, both found to be in order.  `Definition.check` looks at the
tasks as a whole, then at the settings in their order, then at each task in order of names, and
leaves the rest to the graph; the first problem is the one that is told.  `Job.read` goes from the
bytes of a job file to a job.
-/

namespace JobGraph

/-- Settings and tasks that have been checked. -/
structure Job where
  settings : Settings
  graph : Graph
  deriving Repr

namespace Settings

/-- Whether a name can be the name of a file. -/
def isFileName (name : String) : Bool :=
  !Text.isAllBlank name && !name.toList.any fun c => c = '/' || c = '\\'

/-- Whether a number of seconds is finite and within a bound. -/
def isWithin (bound : Bound) (value : Binary64) : Bool :=
  value.isFinite
    && match bound with
      | .positive => !value.isNegative && !value.isZero
      | .nonNegative => value.isZero || !value.isNegative

def checkSeconds (field : String) (bound : Bound) (value : Binary64) : Except Error Unit :=
  if !isWithin bound value then .error (.job (.badSetting field bound value))
  else if (Duration.ofSeconds? value).isNone then .error (.job (.longSetting field value))
  else .ok ()

def check (settings : Settings) : Except Error Unit := do
  if !isFileName settings.name then throw (.job (.badName settings.name))
  checkSeconds "checkpoint_interval_seconds" .positive settings.checkpointInterval
  checkSeconds "tick_interval_seconds" .positive settings.tickInterval
  checkSeconds "abort_grace_seconds" .nonNegative settings.abortGrace

end Settings

def TaskEntry.check (name : String) (entry : TaskEntry) : Except Error Task :=
  if Text.isAllBlank entry.variant then .error (.job (.noVariant name))
  else if entry.maxAttempts = 0 then .error (.job (.noAttempts name))
  else if !Settings.isWithin .nonNegative entry.backoff then
    .error (.job (.badBackoff name entry.backoff))
  else
    match Duration.ofSeconds? entry.backoff with
    | none => .error (.job (.longBackoff name entry.backoff))
    | some backoff =>
      .ok ⟨name, entry.variant, entry.dependsOn, entry.maxAttempts, backoff, entry.parameters⟩

def Definition.check (definition : Definition) : Except Error Job := do
  if definition.tasks.isEmpty then throw (.job .noTasks)
  definition.settings.check
  let tasks ← definition.tasks.entries.mapM fun entry => entry.2.check entry.1
  let graph ← Graph.ofTasks tasks
  return ⟨definition.settings, graph⟩

namespace Job

/-- The job of the text of a job file. -/
def ofText (text : String) : Except Error Job :=
  match (Toml.read? text).bind Definition.ofToml? with
  | some definition => definition.check
  | none => .error .jobText

/-- The job of the bytes of a job file. -/
def ofBytes (bytes : List UInt8) : Except Error Job :=
  match Text.decodeUtf8? bytes with
  | some text => ofText text
  | none => .error (.file .invalidData)

end Job

end JobGraph
