import JobGraph.Number.Duration
import JobGraph.Toml.Record

/-!
# Settings of a job

What holds for a job as a whole: its name, how many tasks run at once, how often progress is saved
and looked at, and how long a task that is told to stop may take.
-/

namespace JobGraph

/-- The settings of a job; times are seconds as they were given. -/
structure Settings where
  name : String
  /-- How many tasks run at once; zero sets no limit. -/
  maxConcurrency : Nat
  checkpointInterval : Binary64
  tickInterval : Binary64
  checkpointDirectory : String
  abortGrace : Binary64
  deriving DecidableEq, Repr

namespace Settings

def default : Settings where
  name := "dagrun"
  maxConcurrency := 0
  checkpointInterval := .ofInt 10
  tickInterval := .ofRatio false 1 4
  checkpointDirectory := ".dagrun"
  abortGrace := .ofInt 30

instance : Inhabited Settings := ⟨default⟩

def checkpointEvery (settings : Settings) : Duration := .saturating settings.checkpointInterval

/-- How long to wait between two looks at the progress. -/
def tickEvery (settings : Settings) : Duration := .saturating settings.tickInterval

/-- How long a task that is told to stop may take. -/
def grace (settings : Settings) : Duration := .saturating settings.abortGrace

def keys : List (List String) :=
  [["name"], ["max_concurrency"], ["checkpoint_interval_seconds"], ["tick_interval_seconds"],
    ["checkpoint_dir"], ["abort_grace_seconds"]]

def ofToml? (value : Toml.Value) : Option Settings := do
  match ← value.fields? keys with
  | [name, maxConcurrency, checkpointInterval, tickInterval, checkpointDirectory, abortGrace] =>
    let name ← Toml.Value.orDefault? default.name Toml.Value.text? name
    let maxConcurrency ←
      Toml.Value.orDefault? default.maxConcurrency (Toml.Value.natBelow? (twoTo 64)) maxConcurrency
    let checkpointInterval ←
      Toml.Value.orDefault? default.checkpointInterval Toml.Value.number? checkpointInterval
    let tickInterval ←
      Toml.Value.orDefault? default.tickInterval Toml.Value.number? tickInterval
    let checkpointDirectory ←
      Toml.Value.orDefault? default.checkpointDirectory Toml.Value.text? checkpointDirectory
    let abortGrace ← Toml.Value.orDefault? default.abortGrace Toml.Value.number? abortGrace
    some
      ⟨name, maxConcurrency, checkpointInterval, tickInterval, checkpointDirectory, abortGrace⟩
  | _ => none

end Settings

end JobGraph
