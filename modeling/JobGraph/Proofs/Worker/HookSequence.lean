import JobGraph.Proofs.Worker.Deeds

/-!
# The sequence of hooks

The lifecycle of a task calls its hooks in a fixed order, each in the context that everything before
it has left (`Hook.Calls`), and does nothing else than look at the context, report the hooks that
did not end well, and finish (`hooks_are_called_in_order`).
-/

namespace JobGraph

namespace Deed

variable {deed : Deed}

/-- Everything that is done for a hook: its own operations, and if it did not end well, a message
and the mark of a failed attempt. -/
def trail (deed : Deed) : List Operation :=
  deed.operations ++ deed.complaint?.elim [] fun message => [.log .error message, .fail]

theorem complaint?_eq_none_iff : deed.complaint? = none ↔ deed.ending = .ok := by
  unfold complaint?
  cases deed.ending <;> simp

theorem lines_of_ok (ended : deed.ending = .ok) :
    deed.lines = deed.operations.filterMap Operation.line? := by
  rw [lines, complaint?_eq_none_iff.2 ended, Option.map_none, Option.toList_none, List.append_nil]

theorem exists_lines_of_not_ok (ended : deed.ending ≠ .ok) :
    ∃ message, deed.lines =
      deed.operations.filterMap Operation.line? ++ [.frame (.log .error message)] := by
  obtain ⟨message, told⟩ := Option.ne_none_iff_exists'.1 (mt complaint?_eq_none_iff.1 ended)
  exact ⟨message, by rw [lines, told]; rfl⟩

theorem failed_iff : deed.failed = true ↔ deed.ending ≠ .ok ∨ .fail ∈ deed.operations := by
  have marked : deed.operations.any Operation.isFail = true ↔ .fail ∈ deed.operations := by
    rw [List.any_eq_true]
    constructor
    · rintro ⟨operation, done, isFail⟩
      cases operation <;> first | exact done | cases isFail
    · exact fun done => ⟨.fail, done, rfl⟩
  rw [failed, Bool.or_eq_true, marked, Option.isSome_iff_ne_none, Ne, complaint?_eq_none_iff,
    or_comm]

end Deed

namespace Hook

variable (stage : String) (hook : Hook) (context : Context)

theorem operations_guarded :
    (guarded stage hook).operations context = (hook.deed stage context).trail := by
  unfold guarded Deed.trail Deed.complaint? deed
  rw [Program.operations_bind]
  cases (hook.run context).2 <;> rfl

theorem after_eq_performAll :
    hook.after stage context = context.performAll (hook.deed stage context).trail := by
  rw [after, Program.run_eq_performAll, operations_guarded]

theorem operations_guarded_bind {α : Type} (next : Unit → Program α) :
    (guarded stage hook >>= next).operations context =
      (hook.deed stage context).trail ++ (next ()).operations (hook.after stage context) := by
  rw [Program.operations_bind, operations_guarded]
  rfl

/-- Some hooks are called one after the other from a context on: each does its deed in the context
that everything before it has left. -/
inductive Calls : Context → List (String × Hook) → List Deed → Prop
  | nil (context : Context) : Calls context [] []
  | cons (context : Context) (stage : String) (hook : Hook) {rest : List (String × Hook)}
      {deeds : List Deed} :
      Calls (context.performAll (hook.deed stage context).trail) rest deeds →
      Calls context ((stage, hook) :: rest) (hook.deed stage context :: deeds)

theorem calls_iff {hooks : List (String × Hook)} {done : List Deed} :
    Calls context hooks done ↔ done = deeds hooks context := by
  induction hooks generalizing context done with
  | nil =>
    constructor
    · rintro ⟨⟩
      rfl
    · rintro rfl
      exact .nil context
  | cons head rest inductionHypothesis =>
    obtain ⟨stage, hook⟩ := head
    constructor
    · rintro ⟨⟩
      next later =>
        rw [← after_eq_performAll] at later
        rw [deeds, (inductionHypothesis _).1 later]
    · rintro rfl
      refine .cons context stage hook ((inductionHypothesis _).2 ?_)
      rw [after_eq_performAll]

theorem afterAll_eq_performAll (hooks : List (String × Hook)) :
    afterAll hooks context = context.performAll ((deeds hooks context).flatMap Deed.trail) := by
  induction hooks generalizing context with
  | nil => rfl
  | cons head rest inductionHypothesis =>
    rw [afterAll, deeds, List.flatMap_cons, Context.performAll_append, ← after_eq_performAll,
      inductionHypothesis]

end Hook

namespace TaskHooks

/-- The hooks between the creation of a task and the verdict on its work. -/
def working (task : TaskHooks) (isRestart : Bool) : List (String × Hook) :=
  (if isRestart then [("on_restart", task.onRestart)] else []) ++ [("run", task.run)]

/-- The lifecycle looks at the context twice, finishes, and looks once more; all else that it does,
it does for its hooks. -/
theorem operations_lifecycle (task : TaskHooks) (context : Context) {created opened : Context}
    (creation : task.onCreate.after "on_create" context = created)
    (opening : Hook.afterAll (task.working context.isRestart) created = opened) :
    task.lifecycle.operations context =
      (task.onCreate.deed "on_create" context).trail ++ [.inspect] ++
        (Hook.deeds (task.working context.isRestart) created).flatMap Deed.trail ++ [.inspect] ++
        (Hook.deeds (task.closing opened.failed) opened).flatMap Deed.trail ++
        [.finish, .inspect] := by
  have restart := task.onCreate.isRestart_after "on_create" context
  subst creation opening
  unfold lifecycle
  simp only [Hook.operations_guarded_bind, Program.operations_inspect_bind, restart]
  -- As in the lifecycle itself: whether there is a hook of a restart, and how the work went.
  cases context.isRestart
  all_goals
    simp only [if_true, Bool.false_eq_true, if_false, Hook.operations_guarded_bind,
      Program.operations_inspect_bind, working, List.cons_append, List.nil_append, Hook.afterAll,
      Hook.deeds]
    split
    all_goals
      next failed =>
        simp only [failed, Hook.operations_guarded_bind, closing, Hook.deeds, if_true,
          Bool.false_eq_true, if_false, List.flatMap_cons, List.flatMap_nil, List.append_assoc,
          List.cons_append, List.nil_append]
        rfl

end TaskHooks

/-- The lifecycle of a task calls the hook of its creation, that of a restart if the attempt is one,
that of the work, that of a failure or of a success by what the context says then, and that of the
end, and each of them finds what those before it have left.  Beside what the hooks do themselves,
the lifecycle only looks at the context, sends one message for each hook that did not end well,
right after what the hook has sent, and finishes.  The attempt fails exactly if a hook did not end
well or marked it as failed. -/
theorem hooks_are_called_in_order (task : TaskHooks) {context : Context}
    (fresh : context.failed = false) :
    ∃ (creation : Deed) (opening closing : List Deed) (opened : Context),
      Hook.Calls context
        (("on_create", task.onCreate) ::
          ((if context.isRestart then [("on_restart", task.onRestart)] else []) ++
            [("run", task.run)]))
        (creation :: opening) ∧
      opened = context.performAll ((creation :: opening).flatMap Deed.trail) ∧
      Hook.Calls opened
        [if opened.failed then ("on_failure", task.onFailure) else ("on_success", task.onSuccess),
          ("on_destroy", task.onDestroy)]
        closing ∧
      task.lifecycle.operations context =
        creation.trail ++ [.inspect] ++ opening.flatMap Deed.trail ++ [.inspect] ++
          closing.flatMap Deed.trail ++ [.finish, .inspect] ∧
      ((task.lifecycle.run context).2 = true ↔
        ∃ deed ∈ creation :: opening ++ closing,
          deed.ending ≠ .ok ∨ .fail ∈ deed.operations) ∧
      (task.lifecycle.run context).1.sent =
        context.sent ++ (creation :: opening ++ closing).flatMap Deed.lines ∧
      ∀ deed ∈ creation :: opening ++ closing,
        (deed.ending = .ok → deed.lines = deed.operations.filterMap Operation.line?) ∧
        (deed.ending ≠ .ok → ∃ message, deed.lines =
          deed.operations.filterMap Operation.line? ++ [.frame (.log .error message)]) := by
  have extends_ := task.extends_after context
  have opened : context.Extends (Hook.deeds (task.opening context.isRestart) context) _ :=
    .hooks (task.opening context.isRestart) context
  rw [TaskHooks.deeds, ← opened.failed] at extends_
  refine ⟨task.onCreate.deed "on_create" context, Hook.deeds (task.working context.isRestart) _,
    Hook.deeds (task.closing _) _, Hook.afterAll (task.opening context.isRestart) context,
    (Hook.calls_iff _).2 rfl, Hook.afterAll_eq_performAll _ _, (Hook.calls_iff _).2 rfl,
    task.operations_lifecycle context rfl rfl, ?_, ?_,
    fun deed _ => ⟨Deed.lines_of_ok, Deed.exists_lines_of_not_ok⟩⟩
  · rw [TaskHooks.run_lifecycle]
    simp only [extends_.failed, fresh, Bool.false_or, List.any_eq_true, Deed.failed_iff]
    rfl
  · rw [TaskHooks.run_lifecycle]
    exact extends_.sent

/-- A hook that tells its name before it ends. -/
def Hook.named (stage : String) (ending : Ending) : Hook := do
  Program.log .info stage
  return ending

/-- A task whose creation fails, and that panics at a restart and at its end. -/
def TaskHooks.stumbling : TaskHooks where
  onCreate := .named "on_create" (.failed (.ofText "no"))
  onRestart := .named "on_restart" (.panicked none)
  run := .named "run" .ok
  onSuccess := .named "on_success" .ok
  onFailure := .named "on_failure" .ok
  onDestroy := .named "on_destroy" (.panicked (some "late"))
  onAbort := .nothing

theorem stumbling_task_calls_every_hook :
    ∃ context : Context, context.failed = false ∧ context.isRestart = true ∧
      (TaskHooks.stumbling.lifecycle.run context).2 = true ∧
      (TaskHooks.stumbling.lifecycle.run context).1.sent =
        [(Severity.info, "on_create"), (.error, "on_create failed: no"), (.info, "on_restart"),
          (.error, "on_restart panicked: non-string panic payload"), (.info, "run"),
          (.info, "on_failure"), (.info, "on_destroy"), (.error, "on_destroy panicked: late")].map
            fun line => .frame (.log line.1 line.2) := by
  let context := Context.ofRequest ⟨"t", "Stumbling", .null, [], 2, true, .empty⟩
  obtain ⟨creation, opening, closing, opened, opens, reached, closes, -, result, sent, -⟩ :=
    hooks_are_called_in_order TaskHooks.stumbling (rfl : context.failed = false)
  have begun := (Hook.calls_iff context).1 opens
  rw [begun] at result sent reached
  rw [reached] at closes
  rw [(Hook.calls_iff _).1 closes] at result sent
  refine ⟨context, rfl, rfl, result.2 ⟨_, List.mem_cons_self, Or.inl ?_⟩, sent⟩
  rintro ⟨⟩

end JobGraph
