import JobGraph.Checkpoint.Snapshot
import JobGraph.Graph.Selection

/-!
# Resuming a run

A snapshot fits a job if it holds each of the job's tasks in exactly one state and no other name.
Tasks that were completed or skipped keep their state; every other task starts anew.
-/

namespace JobGraph

/-- How a task starts out in a run. -/
inductive Seed where
  /-- Run normally, for the first time or again in a resumed run. -/
  | fresh (isRestart : Bool)
  /-- Wait for the dependencies, then end skipped. -/
  | skip
  /-- Ended in an earlier run. -/
  | restored (state : TaskState)
  deriving DecidableEq, Repr

instance : Inhabited Seed := ⟨.fresh false⟩

/-- How the tasks of a resumed run start out, and with which store. -/
structure RestorePlan where
  seeds : KeyMap Seed
  store : Store
  deriving DecidableEq, Repr

namespace RestorePlan

/-- The tasks that run again. -/
def rerun (plan : RestorePlan) : List String :=
  plan.seeds.entries.filterMap fun (name, seed) =>
    match seed with
    | .fresh _ => some name
    | _ => none

end RestorePlan

/-- How a task saved in a state starts out. -/
def Seed.ofSaved : Option TaskState → Seed
  | some .completed => .restored .completed
  | some .skip => .restored .skip
  | _ => .fresh true

/-- The plan of a run that resumes from a snapshot, or why the snapshot does not fit the job. -/
def Snapshot.plan (snapshot : Snapshot) (graph : Graph) : Except Error RestorePlan :=
  let saved := snapshot.states.allNames
  let current := NameSet.ofList graph.names
  if saved = current ∧ snapshot.states.total = saved.size then
    .ok {
      seeds := KeyMap.ofList (graph.names.map fun name =>
        (name, Seed.ofSaved (snapshot.states.stateOf? name)))
      store := snapshot.store }
  else
    let missing := (current.diff saved).toList
    let unknown := (saved.diff current).toList
    if missing.isEmpty && unknown.isEmpty then .error (.checkpointCorrupt .repeatedTask)
    else .error (.checkpointMismatch missing unknown)

/-- Skips the tasks that a selection leaves out, unless they ended in an earlier run. -/
def KeyMap.overlaySkipped (seeds : KeyMap Seed) (skipped : NameSet) : KeyMap Seed :=
  skipped.toList.foldl
    (fun seeds name =>
      match seeds.find? name with
      | some (.restored _) => seeds
      | _ => seeds.insert name .skip)
    seeds

end JobGraph
