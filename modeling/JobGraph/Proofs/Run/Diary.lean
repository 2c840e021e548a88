import JobGraph.Proofs.Run.Concurrency
import JobGraph.Proofs.Run.Lifecycle

/-!
# The diary of a task

Whoever looks at a run from step to step sees what happens to one task: it gets a permit and gives
it back, its moves and the lines that its runner logs appear among the events, attempts are
launched, and pauses begin and end.  `Run.diary` lists all this in its order.  It is read off the
difference that each step makes and says nothing of how the runner comes to its decisions.

Only what the runner of a task does itself is seen of it, with one exception: a task that waits for
a permit may get one by what another runner does.
-/

namespace JobGraph

/-- Something that is seen of a task. -/
inductive Mark where
  | granted
  | released
  | moved (source target : TaskState)
  | launched (attempt : Nat)
  /-- The runner itself puts out a line of log. -/
  | logged (severity : Severity)
  /-- A pause of that length begins. -/
  | paused (length : Duration)
  | rested
  deriving DecidableEq, Repr

attribute [simp] Phase.pause?

theorem Next.pause?_phase (next : Next) : next.phase.pause? = none := by
  cases next <;> rfl

namespace Mark

/-- What is seen where something was so, or not, before and after. -/
def switch (before after : Bool) (on off : Mark) : List Mark :=
  if before = after then [] else if after then [on] else [off]

@[simp]
theorem switch_self (same : Bool) (on off : Mark) : switch same same on off = [] := if_pos rfl

@[simp]
theorem switch_on (on off : Mark) : switch false true on off = [on] := rfl

@[simp]
theorem switch_off (on off : Mark) : switch true false on off = [off] := rfl

def ofEvent (name : String) : Event → List Mark
  | .moved transition =>
    if transition.task = name then [.moved transition.source transition.target] else []
  | .logged line => if line.task = name then [.logged line.severity] else []

def permits (name : String) (before after : Gate) : List Mark :=
  switch (before.holds name) (after.holds name) .granted .released

/-- The events that a step sends; the lines that an attempt puts out are not those of its runner. -/
def sent (name : String) (step : Step) (before after : Scene) : List Mark :=
  match step with
  | .line _ _ _ => []
  | _ => (after.events.drop before.events.length).flatMap (ofEvent name)

def calls (name : String) (before after : Scene) : List Mark :=
  ((after.launches.drop before.launches.length).filter fun request => request.name = name).map
    fun request => .launched request.attempt

def pauses (before after : Runner) : List Mark :=
  if before.phase.pause? = after.phase.pause? then []
  else (before.phase.pause?.map fun _ => .rested).toList ++ (after.phase.pause?.map .paused).toList

variable {name : String} {step : Step} {before after : Scene}

theorem sent_of_same (same : after.events = before.events) : sent name step before after = [] := by
  cases step <;> simp [sent, same]

theorem calls_of_same (same : after.launches = before.launches) : calls name before after = [] := by
  simp [calls, same]

/-! ## Who holds a permit -/

def heldAfter (held : Bool) : Mark → Bool
  | .granted => true
  | .released => false
  | _ => held

/-- Whether a task holds a permit after what is seen of it. -/
def holding (marks : List Mark) : Bool := marks.foldl heldAfter false

/-- The mark has nothing to do with permits. -/
def IsNeutral (mark : Mark) : Prop := ∀ held, heldAfter held mark = held

theorem foldl_heldAfter_of_neutral {marks : List Mark} {held : Bool}
    (neutral : ∀ mark ∈ marks, mark.IsNeutral) : marks.foldl heldAfter held = held := by
  induction marks with
  | nil => rfl
  | cons mark rest inductionHypothesis =>
      rw [List.foldl_cons, neutral mark List.mem_cons_self held]
      exact inductionHypothesis fun other later => neutral other (List.mem_cons_of_mem _ later)

theorem neutral_of_mem_sent {mark : Mark} (seen : mark ∈ sent name step before after) :
    mark.IsNeutral := by
  have ofEvents : ∀ events : List Event, mark ∈ events.flatMap (ofEvent name) →
      mark.IsNeutral := by
    intro events told
    obtain ⟨event, _, ofEvent⟩ := List.mem_flatMap.1 told
    cases event with
    | moved | logged =>
        simp only [Mark.ofEvent, List.mem_ite_nil_right, List.mem_singleton] at ofEvent
        rw [ofEvent.2]
        exact fun _ => rfl
  cases step with
  | line => cases seen
  | _ => exact ofEvents _ seen

theorem neutral_of_mem_calls {mark : Mark} (seen : mark ∈ calls name before after) :
    mark.IsNeutral := by
  obtain ⟨request, _, rfl⟩ := List.mem_map.1 seen
  exact fun _ => rfl

theorem neutral_of_mem_pauses {mark : Mark} {runner later : Runner}
    (seen : mark ∈ pauses runner later) : mark.IsNeutral := by
  unfold pauses at seen
  split at seen
  next => cases seen
  next =>
    rcases List.mem_append.1 seen with ended | begun
    · obtain ⟨_, -, rfl⟩ := Option.map_eq_some_iff.1 (Option.mem_toList.1 ended)
      exact fun _ => rfl
    · obtain ⟨_, -, rfl⟩ := Option.map_eq_some_iff.1 (Option.mem_toList.1 begun)
      exact fun _ => rfl

theorem foldl_heldAfter_permits (name : String) (before after : Gate) :
    (permits name before after).foldl heldAfter (before.holds name) = after.holds name := by
  cases first : before.holds name <;> cases second : after.holds name <;>
    simp [permits, first, second, heldAfter]

end Mark

namespace Run

variable {run next : Run} {step : Step} {name : String}

/-- What is seen of a task in one step. -/
def marks (name : String) (run : Run) (step : Step) (next : Run) : List Mark :=
  Mark.permits name run.scene.gate next.scene.gate ++ Mark.sent name step run.scene next.scene ++
    Mark.calls name run.scene next.scene ++
      match run.find? name, next.find? name with
      | some before, some after => Mark.pauses before after
      | _, _ => []

/-- All that is seen of a task while steps are taken, one thing after the other. -/
def diary (name : String) (run : Run) : List Step → List Mark
  | [] => []
  | step :: rest =>
    match run.step? step with
    | some next => run.marks name step next ++ next.diary name rest
    | none => []

theorem diary_concat {first : Run} {steps : List Step} (reached : first.steps? steps = some run)
    (taken : run.step? step = some next) :
    first.diary name (steps ++ [step]) = first.diary name steps ++ run.marks name step next := by
  induction steps generalizing first with
  | nil =>
      cases reached
      simp [diary, taken]
  | cons earlier rest inductionHypothesis =>
      obtain ⟨second, stepped, further⟩ := Option.bind_eq_some_iff.1 reached
      rw [List.cons_append, diary, diary, stepped]
      dsimp only
      rw [inductionHypothesis further, List.append_assoc]

theorem foldl_heldAfter_marks (name : String) (run : Run) (step : Step) (next : Run) :
    (run.marks name step next).foldl Mark.heldAfter (run.scene.gate.holds name) =
      next.scene.gate.holds name := by
  rw [marks, List.append_assoc, List.append_assoc, List.foldl_append, Mark.foldl_heldAfter_permits]
  apply Mark.foldl_heldAfter_of_neutral
  intro mark seen
  rcases List.mem_append.1 seen with sent | seen
  · exact Mark.neutral_of_mem_sent sent
  rcases List.mem_append.1 seen with called | seen
  · exact Mark.neutral_of_mem_calls called
  split at seen
  next => exact Mark.neutral_of_mem_pauses seen
  next => cases seen

/-- The diary tells at every moment whether the task holds a permit. -/
theorem holding_diary {first : Run} (free : first.scene.gate.held = []) {steps : List Step}
    (reached : first.steps? steps = some run) :
    Mark.holding (first.diary name steps) = run.scene.gate.holds name := by
  induction steps using List.reverseRecOn generalizing run with
  | nil =>
      cases reached
      simp [diary, Mark.holding, Gate.holds, free]
  | append_singleton earlier step inductionHypothesis =>
      obtain ⟨middle, before, taken⟩ := exists_of_steps?_concat reached
      have held := inductionHypothesis before
      rw [Mark.holding] at held ⊢
      rw [diary_concat before taken, List.foldl_append, held, foldl_heldAfter_marks]

/-! ## What others do -/

section Acts

variable {before runner : Runner} {scene : Scene}

theorem marks_own (found : run.find? before.name = some before)
    (act : before.Act run.handle? run.scene step runner scene) :
    run.marks before.name step { run.put runner with scene } =
      Mark.permits before.name run.scene.gate scene.gate ++
        Mark.sent before.name step run.scene scene ++ Mark.calls before.name run.scene scene ++
          Mark.pauses before runner := by
  rw [marks, find?_act found act.name, if_pos rfl, found]

theorem marks_elsewhere (found : run.find? before.name = some before)
    (act : before.Act run.handle? run.scene step runner scene) (different : before.name ≠ name) :
    run.marks name step { run.put runner with scene } =
      Mark.permits name run.scene.gate scene.gate := by
  -- Whatever a runner sends or launches carries the name of its own task.
  have sent : Mark.sent name step run.scene scene = [] := by
    cases act with
    | announce | fail => simp [Mark.sent, Scene.send, Mark.ofEvent, different]
    | _ => exact Mark.sent_of_same rfl
  have calls : Mark.calls name run.scene scene = [] := by
    rw [Mark.calls, act.launches, List.drop_left, Runner.filter_launched, if_neg different,
      List.map_nil]
  rw [marks, find?_act found act.name, if_neg different.symm, sent, calls]
  cases run.find? name with
  | none => simp
  | some other => simp [Mark.pauses]

/-- Whatever a runner does, it takes no permit from others and brings only those to one that wait
for it. -/
theorem Permitted.spares (permitted : Permitted run) (found : run.find? before.name = some before)
    (act : before.Act run.handle? run.scene step runner scene) :
    Gate.Spares before.name run.scene.gate scene.gate := by
  cases act with
  | pass phase | queue phase =>
      refine (Gate.acquire_fair permitted.fair ?_).2.1
      rw [List.mem_append, not_or]
      refine ⟨permitted.not_held found ?_, permitted.not_waiting found ?_⟩
      · rw [phase]
        rfl
      · rw [phase]
        exact fun same => by cases same
  | withdraw =>
      obtain ⟨fair, spares, absent⟩ := Gate.cancel_fair permitted.fair before.name
      exact spares.trans (Gate.release_fair fair absent).2.1
  | release phase | leave phase =>
      refine (Gate.release_fair permitted.fair (permitted.not_waiting found ?_)).2.1
      rw [phase]
      exact fun same => by cases same
  | _ => exact Gate.Spares.refl

theorem Permitted.permits_elsewhere (permitted : Permitted run)
    (found : run.find? before.name = some before)
    (act : before.Act run.handle? run.scene step runner scene) (different : name ≠ before.name)
    {other : Runner} (otherFound : run.find? name = some other) :
    (run.scene.gate.holds name = true → scene.gate.holds name = true) ∧
      (other.phase ≠ .queued → scene.gate.holds name = run.scene.gate.holds name) := by
  have kept : run.scene.gate.holds name = true → scene.gate.holds name = true := by
    simp only [Gate.holds, List.contains_iff_mem]
    exact act.minds.held name different
  refine ⟨kept, ?_⟩
  intro notQueued
  -- A permit that comes to another task comes from the queue, where this one does not stand.
  rw [Bool.eq_iff_iff]
  refine ⟨?_, kept⟩
  simp only [Gate.holds, List.contains_iff_mem]
  intro held
  cases name_of_find? otherFound
  exact ((permitted.spares found act).held _ different held).resolve_right
    (permitted.not_waiting otherFound notQueued)

end Acts

theorem marks_of_idle (idle : next.find? name = run.find? name)
    (gate : next.scene.gate = run.scene.gate)
    (launches : next.scene.launches = run.scene.launches)
    (sent : Mark.sent name step run.scene next.scene = []) : run.marks name step next = [] := by
  rw [marks, idle, sent, Mark.calls_of_same launches, Mark.permits, gate]
  cases run.find? name with
  | none => simp
  | some runner => simp [Mark.pauses]

end Run

end JobGraph
