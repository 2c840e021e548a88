import JobGraph.Task.Program

/-!
# The lifecycle of an attempt

A task has a hook for each stage of an attempt.  All stages of the lifecycle are gone through in
order whatever happens in them; a hook that fails or panics marks the attempt as failed and is
reported by one error message.  An abort runs its own hook, at most once and never after the
lifecycle has finished.
-/

namespace JobGraph

/-- How a hook ends. -/
inductive Ending where
  | ok
  | failed (failure : Failure)
  /-- A panic, with its message if it has one. -/
  | panicked (message : Option String)
  deriving DecidableEq, Repr

abbrev Hook := Program Ending

/-- The hooks of a task. -/
structure TaskHooks where
  onCreate : Hook
  onRestart : Hook
  run : Hook
  onSuccess : Hook
  onFailure : Hook
  onDestroy : Hook
  onAbort : Hook

namespace Hook

def nothing : Hook := .done .ok

/-- Runs a hook; an error or a panic is logged and marks the attempt as failed. -/
def guarded (stage : String) (hook : Hook) : Program Unit := do
  match ← hook with
  | .ok => return ()
  | .failed failure =>
    let shown := failure.oneLine
    Program.log .error s!"{stage} failed: {shown}"
    Program.fail
  | .panicked message =>
    let shown := message.getD "non-string panic payload"
    Program.log .error s!"{stage} panicked: {shown}"
    Program.fail

end Hook

namespace TaskHooks

/-- The lifecycle of an attempt; its result is whether the attempt failed. -/
def lifecycle (task : TaskHooks) : Program Bool := do
  Hook.guarded "on_create" task.onCreate
  if (← Program.inspect).isRestart then
    Hook.guarded "on_restart" task.onRestart
  Hook.guarded "run" task.run
  if (← Program.inspect).failed then
    Hook.guarded "on_failure" task.onFailure
  else
    Hook.guarded "on_success" task.onSuccess
  Hook.guarded "on_destroy" task.onDestroy
  Program.perform .finish
  return (← Program.inspect).failed

/-- An abort; its result is whether it took place. -/
def abort (task : TaskHooks) : Program Bool := do
  if ← Program.beginAbort then
    Hook.guarded "on_abort" task.onAbort
    Program.fail
    return true
  else
    return false

end TaskHooks

end JobGraph
