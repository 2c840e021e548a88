import JobGraph.Job.Settings

/-!
# Definitions of jobs

A definition is what a job file says before anything but the shape of its values is checked:
settings and, under each name, what a task is.  Keys other than `config` and `task` at the outermost
level are passed over.
-/

namespace JobGraph

/-- What a job file says about one task; the pause between attempts is in seconds. -/
structure TaskEntry where
  variant : String
  dependsOn : List String
  maxAttempts : Nat
  backoff : Binary64
  parameters : Json.Value
  deriving DecidableEq, Repr

/-- What a job file says. -/
structure Definition where
  settings : Settings
  tasks : KeyMap TaskEntry
  deriving DecidableEq, Repr

namespace TaskEntry

def keys : List (List String) :=
  [["variant"], ["depends_on", "after"], ["max_attempts"], ["backoff"], ["parameters"]]

/-- A task of a variant that says nothing else. -/
def ofVariant (variant : String) : TaskEntry := ⟨variant, [], 1, .zero, .obj []⟩

def ofToml? (value : Toml.Value) : Option TaskEntry := do
  match ← value.fields? keys with
  | [variant, dependsOn, maxAttempts, backoff, parameters] =>
    let entry := ofVariant (← (← variant).text?)
    let dependsOn ← Toml.Value.orDefault? entry.dependsOn Toml.Value.texts? dependsOn
    let maxAttempts ←
      Toml.Value.orDefault? entry.maxAttempts (Toml.Value.natBelow? (twoTo 32)) maxAttempts
    let backoff ← Toml.Value.orDefault? entry.backoff Toml.Value.number? backoff
    let parameters ← Toml.Value.orDefault? entry.parameters Toml.Value.toJson? parameters
    some ⟨entry.variant, dependsOn, maxAttempts, backoff, parameters⟩
  | _ => none

end TaskEntry

namespace Definition

/-- The value under a key of the outermost table. -/
def member? (key : String) (members : List (String × Toml.Value)) : Option Toml.Value :=
  (members.find? fun member => member.1 = key).map Prod.snd

def tasksOfToml? : Toml.Value → Option (KeyMap TaskEntry)
  | .table members =>
    (members.mapM fun member =>
      (TaskEntry.ofToml? member.2).map fun entry => (member.1, entry)).map KeyMap.ofList
  | _ => none

def ofToml? (members : List (String × Toml.Value)) : Option Definition := do
  let settings ← Toml.Value.orDefault? Settings.default Settings.ofToml? (member? "config" members)
  let tasks ← Toml.Value.orDefault? KeyMap.empty tasksOfToml? (member? "task" members)
  some ⟨settings, tasks⟩

end Definition

end JobGraph
