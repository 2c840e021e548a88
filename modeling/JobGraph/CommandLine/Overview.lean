import JobGraph.Job.Basic
import JobGraph.NameSet

/-!
# The overview of a job

What a dry run shows: the settings and the tasks in order of their names.
-/

namespace JobGraph

def Task.overview (task : Task) (skipped : Bool) : List String :=
  let attempts := task.maxAttempts
  let pause := task.backoff.toSeconds.message
  let dependencies := Text.quotedList task.dependsOn
  ["  - " ++ task.name, "      variant: " ++ task.variant]
    ++ (if task.dependsOn.isEmpty then [] else ["      depends_on: " ++ dependencies])
    ++ (if 1 < attempts then [s!"      max_attempts: {attempts} (backoff {pause}s)"] else [])
    ++ if skipped then ["      skipped: true"] else []

/-- The lines of the overview: how many tasks may run at once, and which are left out. -/
def Job.overview (job : Job) (limit : Nat) (skipped : NameSet) : List String :=
  let settings := job.settings
  let interval := settings.checkpointInterval.message
  let count := job.graph.tasks.length
  ["dagrun dry-run", "  config.name = " ++ settings.name,
    s!"  config.max_concurrency = {limit}",
    s!"  config.checkpoint_interval_seconds = {interval}",
    "  config.checkpoint_dir = " ++ settings.checkpointDirectory, "", s!"tasks ({count}):"]
    ++ job.graph.tasks.flatMap fun task => task.overview (decide (task.name ∈ skipped))

end JobGraph
