import JobGraph.Task.Lifecycle

/-!
# What a task does in an attempt

A deed is what one hook did: the operations that it carried out, in order, and how it ended.  The
lifecycle of a task does one deed after the other (`TaskHooks.deeds`).  What it sends, and whether
it fails, is what its deeds say (`TaskHooks.lifecycle_eq`).
-/

namespace JobGraph

/-! ## Operations -/

namespace Operation

/-- The line of output that an operation sends, if it sends one. -/
def line? : Operation → Option OutputLine
  | .log severity message => some (.frame (.log severity message))
  | .print line => some (.text line)
  | .set key value => some (.frame (.storeSet key value))
  | .remove key => some (.frame (.storeRemove key))
  | .report failed aborted => some (.frame (.finished failed aborted))
  | _ => none

/-- The write to the store that an operation is. -/
def write? : Operation → Option StoreWrite
  | .set key value => some (.set key value)
  | .remove key => some (.remove key)
  | _ => none

/-- Whether an operation marks the attempt as failed. -/
def isFail : Operation → Bool
  | .fail => true
  | _ => false

/-- The operations of the lifecycle and of the abort, which no hook carries out. -/
def isReserved : Operation → Bool
  | .isFinished | .claimAbort | .finish | .report _ _ => true
  | _ => false

end Operation

namespace Context

theorem sent_perform (context : Context) (operation : Operation) :
    (context.perform operation).1.sent = context.sent ++ operation.line?.toList := by
  cases operation <;> simp [perform, Operation.line?, log, send]

theorem failed_perform (context : Context) (operation : Operation) :
    (context.perform operation).1.failed = (context.failed || operation.isFail) := by
  cases operation <;> simp [perform, Operation.isFail, log, send]

theorem isRestart_perform (context : Context) (operation : Operation) :
    (context.perform operation).1.isRestart = context.isRestart := by
  cases operation <;> rfl

theorem aborted_perform (context : Context) {operation : Operation}
    (open_ : operation.isReserved = false) :
    (context.perform operation).1.aborted = context.aborted := by
  cases operation <;> first | rfl | cases open_

/-- The context after some operations, one after the other. -/
def performAll (context : Context) (operations : List Operation) : Context :=
  operations.foldl (fun context operation => (context.perform operation).1) context

@[simp]
theorem performAll_nil (context : Context) : context.performAll [] = context := rfl

@[simp]
theorem performAll_cons (context : Context) (operation : Operation) (rest : List Operation) :
    context.performAll (operation :: rest) = (context.perform operation).1.performAll rest := rfl

theorem performAll_append (context : Context) (front back : List Operation) :
    context.performAll (front ++ back) = (context.performAll front).performAll back :=
  List.foldl_append

end Context

/-! ## Programs -/

namespace Program

variable {α β : Type}

/-- The operations that a program carries out from a context on, in order. -/
def operations : Program α → Context → List Operation
  | .done _, _ => []
  | .act operation next, context =>
    let (after, answer) := context.perform operation
    operation :: (next answer).operations after

theorem operations_act (operation : Operation) (next : operation.Answer → Program α)
    (context : Context) :
    (act operation next).operations context =
      operation :: (next (context.perform operation).2).operations
        (context.perform operation).1 := rfl

theorem run_act (operation : Operation) (next : operation.Answer → Program α) (context : Context) :
    (act operation next).run context =
      (next (context.perform operation).2).run (context.perform operation).1 := rfl

theorem run_bind (program : Program α) (next : α → Program β) (context : Context) :
    (program >>= next).run context =
      (next (program.run context).2).run (program.run context).1 := by
  induction program generalizing context with
  | done result => rfl
  | act operation rest inductionHypothesis => exact inductionHypothesis _ _

theorem run_inspect_bind (next : Context → Program β) (context : Context) :
    (inspect >>= next).run context = (next context).run context := rfl

theorem operations_bind (program : Program α) (next : α → Program β) (context : Context) :
    (program >>= next).operations context =
      program.operations context ++
        (next (program.run context).2).operations (program.run context).1 := by
  induction program generalizing context with
  | done result => rfl
  | act operation rest inductionHypothesis =>
    exact congrArg (operation :: ·) (inductionHypothesis _ _)

theorem operations_inspect_bind (next : Context → Program β) (context : Context) :
    (inspect >>= next).operations context = .inspect :: (next context).operations context := rfl

variable (program : Program α) (context : Context)

/-- A program leaves the context that its operations leave. -/
theorem run_eq_performAll :
    (program.run context).1 = context.performAll (program.operations context) := by
  induction program generalizing context with
  | done result => rfl
  | act operation next inductionHypothesis => exact inductionHypothesis _ _

theorem sent_run : (program.run context).1.sent =
    context.sent ++ (program.operations context).filterMap Operation.line? := by
  induction program generalizing context with
  | done result => simp [run, operations]
  | act operation next inductionHypothesis =>
    rw [run_act, operations_act, inductionHypothesis, Context.sent_perform, List.append_assoc]
    cases line : operation.line? <;> simp [line]

theorem failed_run : (program.run context).1.failed =
    (context.failed || (program.operations context).any Operation.isFail) := by
  induction program generalizing context with
  | done result => simp [run, operations]
  | act operation next inductionHypothesis =>
    rw [run_act, operations_act, inductionHypothesis, Context.failed_perform, List.any_cons,
      Bool.or_assoc]

theorem isRestart_run : (program.run context).1.isRestart = context.isRestart := by
  induction program generalizing context with
  | done result => rfl
  | act operation next inductionHypothesis =>
    rw [run_act, inductionHypothesis, Context.isRestart_perform]

theorem aborted_run
    (open_ : ∀ operation ∈ program.operations context, operation.isReserved = false) :
    (program.run context).1.aborted = context.aborted := by
  induction program generalizing context with
  | done result => rfl
  | act operation next inductionHypothesis =>
    rw [operations_act] at open_
    obtain ⟨first, rest⟩ := List.forall_mem_cons.1 open_
    rw [run_act, inductionHypothesis _ _ rest, Context.aborted_perform context first]

end Program

/-! ## Hooks -/

/-- What one hook did. -/
structure Deed where
  stage : String
  operations : List Operation
  ending : Ending

namespace Deed

/-- The message about a hook that did not end well. -/
def complaint? (deed : Deed) : Option String :=
  match deed.ending with
  | .ok => none
  | .failed failure =>
    let shown := failure.oneLine
    some s!"{deed.stage} failed: {shown}"
  | .panicked message =>
    let shown := message.getD "non-string panic payload"
    some s!"{deed.stage} panicked: {shown}"

/-- Whether the attempt is failed by what the hook did. -/
def failed (deed : Deed) : Bool :=
  deed.operations.any Operation.isFail || deed.complaint?.isSome

/-- The lines of output that a hook sends, with the one that is sent about it. -/
def lines (deed : Deed) : List OutputLine :=
  deed.operations.filterMap Operation.line? ++
    (deed.complaint?.map fun message => .frame (.log .error message)).toList

/-- The writes to the store, in order. -/
def writes (deed : Deed) : List StoreWrite := deed.operations.filterMap Operation.write?

end Deed

namespace Hook

/-- What a hook does in a context. -/
def deed (stage : String) (hook : Hook) (context : Context) : Deed :=
  ⟨stage, hook.operations context, (hook.run context).2⟩

/-- The context after a hook, with the consequences of its end. -/
def after (stage : String) (hook : Hook) (context : Context) : Context :=
  ((guarded stage hook).run context).1

variable (stage : String) (hook : Hook) (context : Context)

theorem run_guarded_bind {α : Type} (next : Unit → Program α) :
    (guarded stage hook >>= next).run context = (next ()).run (hook.after stage context) :=
  Program.run_bind ..

theorem after_eq : hook.after stage context =
    match (hook.deed stage context).complaint? with
    | none => (hook.run context).1
    | some message => { (hook.run context).1.log .error message with failed := true } := by
  unfold after guarded Deed.complaint? deed
  rw [Program.run_bind]
  cases (hook.run context).2 <;> rfl

theorem sent_after :
    (hook.after stage context).sent = context.sent ++ (hook.deed stage context).lines := by
  have sent := hook.sent_run context
  rw [after_eq, Deed.lines]
  cases (hook.deed stage context).complaint? with
  | none => simpa [deed] using sent
  | some message => simp [deed, Context.log, Context.send, sent]

theorem failed_after : (hook.after stage context).failed =
    (context.failed || (hook.deed stage context).failed) := by
  have failed := hook.failed_run context
  rw [after_eq, Deed.failed]
  cases (hook.deed stage context).complaint? with
  | none => simpa [deed] using failed
  | some message => simp

theorem isRestart_after : (hook.after stage context).isRestart = context.isRestart := by
  have isRestart := hook.isRestart_run context
  rw [after_eq]
  cases (hook.deed stage context).complaint? with
  | none => exact isRestart
  | some message => exact isRestart

theorem aborted_after
    (open_ : ∀ operation ∈ (hook.deed stage context).operations, operation.isReserved = false) :
    (hook.after stage context).aborted = context.aborted := by
  have aborted := hook.aborted_run context open_
  rw [after_eq]
  cases (hook.deed stage context).complaint? with
  | none => exact aborted
  | some message => exact aborted

/-- The context after some hooks, one after the other. -/
def afterAll : List (String × Hook) → Context → Context
  | [], context => context
  | (stage, hook) :: rest, context => afterAll rest (hook.after stage context)

/-- What some hooks do, one after the other. -/
def deeds : List (String × Hook) → Context → List Deed
  | [], _ => []
  | (stage, hook) :: rest, context =>
    hook.deed stage context :: deeds rest (hook.after stage context)

end Hook

/-- What a context has more than an earlier one is what the deeds in between say. -/
structure Context.Extends (context : Context) (deeds : List Deed) (later : Context) : Prop where
  sent : later.sent = context.sent ++ deeds.flatMap Deed.lines
  failed : later.failed = (context.failed || deeds.any Deed.failed)
  isRestart : later.isRestart = context.isRestart
  aborted : (∀ deed ∈ deeds, ∀ operation ∈ deed.operations, operation.isReserved = false) →
    later.aborted = context.aborted

namespace Context.Extends

theorem refl (context : Context) : context.Extends [] context where
  sent := by simp
  failed := by simp
  isRestart := rfl
  aborted := fun _ => rfl

theorem trans {first second third : Context} {front back : List Deed}
    (former : first.Extends front second) (latter : second.Extends back third) :
    first.Extends (front ++ back) third where
  sent := by rw [latter.sent, former.sent, List.flatMap_append, List.append_assoc]
  failed := by rw [latter.failed, former.failed, List.any_append, Bool.or_assoc]
  isRestart := latter.isRestart.trans former.isRestart
  aborted := fun open_ =>
    (latter.aborted fun deed listed => open_ deed (List.mem_append_right _ listed)).trans
      (former.aborted fun deed listed => open_ deed (List.mem_append_left _ listed))

theorem hook (stage : String) (hook : Hook) (context : Context) :
    context.Extends [hook.deed stage context] (hook.after stage context) where
  sent := by rw [hook.sent_after, List.flatMap_singleton]
  failed := by rw [hook.failed_after, List.any_cons, List.any_nil, Bool.or_false]
  isRestart := hook.isRestart_after stage context
  aborted := fun open_ => hook.aborted_after stage context (open_ _ List.mem_cons_self)

theorem hooks (hooks : List (String × Hook)) (context : Context) :
    context.Extends (Hook.deeds hooks context) (Hook.afterAll hooks context) := by
  induction hooks generalizing context with
  | nil => exact refl context
  | cons head rest inductionHypothesis =>
    exact (hook head.1 head.2 context).trans (inductionHypothesis _)

end Context.Extends

/-! ## The lifecycle -/

namespace TaskHooks

/-- The hooks up to the task's own work. -/
def opening (task : TaskHooks) (isRestart : Bool) : List (String × Hook) :=
  ("on_create", task.onCreate) ::
    ((if isRestart then [("on_restart", task.onRestart)] else []) ++ [("run", task.run)])

/-- The hooks after the task's own work. -/
def closing (task : TaskHooks) (failed : Bool) : List (String × Hook) :=
  [if failed then ("on_failure", task.onFailure) else ("on_success", task.onSuccess),
    ("on_destroy", task.onDestroy)]

/-- What a task does in an attempt that starts in a context. -/
def deeds (task : TaskHooks) (context : Context) : List Deed :=
  let opened := Hook.deeds (task.opening context.isRestart) context
  opened ++ Hook.deeds (task.closing (context.failed || opened.any Deed.failed))
    (Hook.afterAll (task.opening context.isRestart) context)

/-- The context after all hooks of an attempt. -/
def after (task : TaskHooks) (context : Context) : Context :=
  let opened := Hook.afterAll (task.opening context.isRestart) context
  Hook.afterAll (task.closing opened.failed) opened

theorem extends_after (task : TaskHooks) (context : Context) :
    context.Extends (task.deeds context) (task.after context) := by
  have opened := Context.Extends.hooks (task.opening context.isRestart) context
  rw [deeds, ← opened.failed]
  exact opened.trans (Context.Extends.hooks _ _)

theorem run_lifecycle (task : TaskHooks) (context : Context) :
    task.lifecycle.run context =
      ({ task.after context with finished := true }, (task.after context).failed) := by
  have restart := task.onCreate.isRestart_after "on_create" context
  unfold lifecycle after
  simp only [Hook.run_guarded_bind, Program.run_inspect_bind, restart]
  -- The lifecycle asks twice: whether to call the hook of a restart, and how the work went.
  cases context.isRestart
  all_goals
    simp only [if_true, Bool.false_eq_true, if_false, Hook.run_guarded_bind,
      Program.run_inspect_bind, opening, List.cons_append, List.nil_append, Hook.afterAll]
    split
    all_goals
      next failed =>
        simp only [failed, Hook.run_guarded_bind, closing, Hook.afterAll, if_true,
          Bool.false_eq_true, if_false]
        rfl

end TaskHooks

end JobGraph
