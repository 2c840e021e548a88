import JobGraph.Proofs.Run.Dependencies
import Mathlib.Logic.Function.Basic
import Mathlib.Logic.Relation

/-!
# Waiting for tasks that may die

A runner that waits hears of each dependency in turn: the terminal state that it published, or, if
it is gone, the last state that it published.  Around the runner the others publish whatever states
they like, and each may be gone at any time, whether its task has ended or not; `Watch.Step` is one
thing that happens there.

What the runner heard was true at the moment when it heard it, and it stays true if nobody publishes
anything after a terminal state.  So the wait ends well exactly if each dependency was completed or
skipped, or is gone without having ended: the death of a dependency does not hold a task back.
-/

namespace JobGraph

namespace Handle

/-- Whoever waits for the task goes on, and is not kept from running. -/
def LetsPass (handle : Handle) : Prop :=
  handle.state.Clears ∨ handle.gone = true ∧ handle.state.isTerminal = false

theorem letsPass_iff {handle : Handle} :
    handle.LetsPass ↔ ∃ state, handle.settled? = some state ∧ state.blocksDependents = false := by
  obtain ⟨state, gone⟩ := handle
  cases state <;> cases gone <;>
    simp [LetsPass, settled?, TaskState.Clears, TaskState.isTerminal, TaskState.active,
      TaskState.blocksDependents]

end Handle

/-- A runner, and what it sees of the others. -/
structure Watch where
  runner : Runner
  handle? : String → Option Handle

namespace Watch

open Relation (ReflTransGen)

/-- Another runner is seen anew. -/
def seeing (watch : Watch) (name : String) (handle : Handle) : Watch :=
  { watch with handle? := Function.update watch.handle? name (some handle) }

/-- One thing that happens: another runner publishes a state or is gone, or the runner takes its
next step, whatever it shares with the others at that moment. -/
inductive Step (watch : Watch) : Watch → Prop
  | publish {name : String} {old : TaskState} (known : watch.handle? name = some ⟨old, false⟩)
      (state : TaskState) : Step watch (watch.seeing name ⟨state, false⟩)
  | die {name : String} {last : TaskState} (known : watch.handle? name = some ⟨last, false⟩) :
      Step watch (watch.seeing name ⟨last, true⟩)
  | turn {scene after : Scene} {runner : Runner}
      (taken : watch.runner.step? watch.handle? scene = some (runner, after)) :
      Step watch { watch with runner }

/-- Nobody publishes anything after a terminal state. -/
def KeepsEnds (watch next : Watch) : Prop :=
  ∀ name handle, watch.handle? name = some handle → handle.state.isTerminal = true →
    (next.handle? name).map Handle.state = some handle.state

/-- One thing that happens where nobody publishes anything after a terminal state. -/
def Steady (watch next : Watch) : Prop := watch.Step next ∧ watch.KeepsEnds next

/-- What a wait for a task ends with at this moment; nothing for an unknown task. -/
def Answers (watch : Watch) (name : String) : Option TaskState → Prop
  | none => watch.handle? name = none
  | some state => ∃ handle, watch.handle? name = some handle ∧ handle.settled? = some state

variable {first watch next : Watch} {task : Task} {seed : Seed} {rest : List String} {good : Bool}

@[simp]
theorem handle?_seeing_self (watch : Watch) (name : String) (handle : Handle) :
    (watch.seeing name handle).handle? name = some handle :=
  Function.update_self _ _ _

theorem handle?_seeing_of_ne {name other : String} (apart : name ≠ other) (handle : Handle) :
    (watch.seeing other handle).handle? name = watch.handle? name :=
  Function.update_of_ne apart _ _

/-- A runner waits because it has just arrived, or since it has heard of one more dependency. -/
theorem waiting_cases {scene after : Scene} {runner : Runner}
    (taken : watch.runner.step? watch.handle? scene = some (runner, after))
    (phase : runner.phase = .waiting rest good) :
    (rest = watch.runner.task.dependsOn ∧ good = true) ∨
      ∃ dependency before answer, watch.runner.phase = .waiting (dependency :: rest) before ∧
        watch.Answers dependency answer ∧
        (good = true ↔ before = true ∧
          ∃ state, answer = some state ∧ state.blocksDependents = false) := by
  cases Runner.act_of_step? taken with
  | arrive =>
      cases phase
      exact Or.inl ⟨rfl, rfl⟩
  | hear waiting known settled =>
      cases phase
      refine Or.inr ⟨_, _, some _, waiting, ⟨_, known, settled⟩, ?_⟩
      simp
  | miss waiting unknown =>
      cases phase
      refine Or.inr ⟨_, _, none, waiting, unknown, ?_⟩
      simp
  | publish announced =>
      rename_i target further
      cases further <;> cases phase
  | _ => cases phase

theorem Step.task_eq (step : watch.Step next) : next.runner.task = watch.runner.task := by
  cases step with
  | publish | die => rfl
  | turn taken => exact (Runner.act_of_step? taken).task

/-! ## What a runner has heard -/

section Heard

variable {rel : Watch → Watch → Prop}

theorem task_of_reached (within : ∀ {watch next}, rel watch next → watch.Step next)
    (starts : first.runner = .ofTask task seed) (reached : ReflTransGen rel first watch) :
    watch.runner.task = task := by
  induction reached with
  | refl => exact congrArg Runner.task starts
  | tail _ step inductionHypothesis => exact (within step).task_eq.trans inductionHypothesis

/-- A runner that waits has an answer for each dependency that is not left, and each was the answer
at some moment. -/
theorem exists_heard (within : ∀ {watch next}, rel watch next → watch.Step next)
    (starts : first.runner = .ofTask task seed) (reached : ReflTransGen rel first watch)
    (phase : watch.runner.phase = .waiting rest good) :
    ∃ heard : List (String × Option TaskState), task.dependsOn = heard.map Prod.fst ++ rest ∧
      (good = true ↔ ∀ entry ∈ heard,
        ∃ state, entry.2 = some state ∧ state.blocksDependents = false) ∧
      ∀ entry ∈ heard, ∃ moment, ReflTransGen rel first moment ∧ ReflTransGen rel moment watch ∧
        moment.Answers entry.1 entry.2 := by
  induction reached generalizing rest good with
  | refl =>
      rw [starts] at phase
      cases phase
  | @tail watch next reached step inductionHypothesis =>
      cases within step with
      | publish | die =>
          obtain ⟨heard, split, fine, answers⟩ := inductionHypothesis phase
          refine ⟨heard, split, fine, ?_⟩
          intro entry member
          obtain ⟨moment, since, later, answer⟩ := answers entry member
          exact ⟨moment, since, later.tail step, answer⟩
      | turn taken =>
          rcases waiting_cases taken phase with ⟨rfl, rfl⟩ |
            ⟨dependency, before, answer, waiting, answered, turned⟩
          · exact ⟨[], by simp [task_of_reached within starts reached], by simp, by simp⟩
          · obtain ⟨heard, split, fine, answers⟩ := inductionHypothesis waiting
            refine ⟨heard ++ [(dependency, answer)], by simp [split], ?_, ?_⟩
            · rw [turned, fine]
              simp only [List.mem_append, List.mem_singleton, or_imp, forall_and, forall_eq]
            · intro entry member
              rcases List.mem_append.1 member with earlier | last
              · obtain ⟨moment, since, later, told⟩ := answers entry earlier
                exact ⟨moment, since, later.tail step, told⟩
              · cases List.mem_singleton.1 last
                exact ⟨watch, reached, .single step, answered⟩

end Heard

/-- What a wait has ended with stays so when someone is seen anew in the same terminal state. -/
theorem Answers.seeing {name other : String} {answer : Option TaskState} {old : TaskState}
    {handle : Handle} (answers : watch.Answers name answer)
    (known : watch.handle? other = some ⟨old, false⟩)
    (kept : old.isTerminal = true → handle.state = old) :
    (watch.seeing other handle).Answers name answer := by
  by_cases same : name = other
  · subst same
    cases answer with
    | none => cases known.symm.trans answers
    | some ended =>
        obtain ⟨before, found, settled⟩ := answers
        cases found.symm.trans known
        obtain ⟨closed, rfl⟩ : old.isTerminal = true ∧ old = ended := by
          simpa [Handle.settled?] using settled
        exact ⟨handle, handle?_seeing_self _ _ _, by simp [Handle.settled?, kept closed, closed]⟩
  · cases answer with
    | none => exact (handle?_seeing_of_ne same handle).trans answers
    | some ended =>
        obtain ⟨before, found, settled⟩ := answers
        exact ⟨before, (handle?_seeing_of_ne same handle).trans found, settled⟩

/-- What a wait has ended with stays so if nobody publishes anything after a terminal state. -/
theorem Answers.steady {name : String} {answer : Option TaskState}
    (answers : watch.Answers name answer) (steady : watch.Steady next) :
    next.Answers name answer := by
  obtain ⟨step, keeps⟩ := steady
  cases step with
  | @publish other old known state =>
      apply answers.seeing known
      intro ended
      have kept := keeps other _ known ended
      rwa [handle?_seeing_self, Option.map_some, Option.some_inj] at kept
  | die known => exact answers.seeing known fun _ => rfl
  | turn => exact answers

theorem Answers.reached {name : String} {answer : Option TaskState}
    (answers : watch.Answers name answer)
    (reached : ReflTransGen Steady watch next) :
    next.Answers name answer := by
  induction reached with
  | refl => exact answers
  | tail _ step inductionHypothesis => exact inductionHypothesis.steady step

theorem letsPass_of_answers {name : String} {answer : Option TaskState}
    (answers : watch.Answers name answer)
    (fine : ∃ state, answer = some state ∧ state.blocksDependents = false) :
    ∃ handle, watch.handle? name = some handle ∧ handle.LetsPass := by
  obtain ⟨state, rfl, lets⟩ := fine
  obtain ⟨handle, found, settled⟩ := answers
  exact ⟨handle, found, Handle.letsPass_iff.2 ⟨state, settled, lets⟩⟩

theorem fine_of_letsPass {name : String} {answer : Option TaskState} {handle : Handle}
    (answers : watch.Answers name answer) (found : watch.handle? name = some handle)
    (passes : handle.LetsPass) :
    ∃ state, answer = some state ∧ state.blocksDependents = false := by
  obtain ⟨state, settled, lets⟩ := Handle.letsPass_iff.1 passes
  cases answer with
  | none => cases answers.symm.trans found
  | some ended =>
      obtain ⟨other, otherFound, otherSettled⟩ := answers
      cases otherFound.symm.trans found
      cases otherSettled.symm.trans settled
      exact ⟨_, rfl, lets⟩

/-- Where nobody publishes anything after a terminal state, the end of a wait is told by how the
dependencies were last seen. -/
theorem passes_iff (starts : first.runner = .ofTask task seed)
    (reached : ReflTransGen Steady first watch)
    (done : watch.runner.phase = .waiting [] good) :
    good = true ↔ ∀ dependency ∈ task.dependsOn,
      ∃ handle, watch.handle? dependency = some handle ∧ handle.LetsPass := by
  obtain ⟨heard, split, fine, answers⟩ := exists_heard And.left starts reached done
  have lasting : ∀ entry ∈ heard, watch.Answers entry.1 entry.2 := by
    intro entry member
    obtain ⟨moment, _, later, answer⟩ := answers entry member
    exact answer.reached later
  rw [fine, split, List.append_nil, List.forall_mem_map]
  constructor
  · intro passed entry member
    exact letsPass_of_answers (lasting entry member) (passed entry member)
  · intro passed entry member
    obtain ⟨handle, found, lets⟩ := passed entry member
    exact fine_of_letsPass (lasting entry member) found lets

/-- Whatever the others publish and whoever of them is gone, a wait ends well only if each
dependency was at some moment completed or skipped, or gone without an end.  If nobody publishes
anything after a terminal state, it ends well exactly if each was last seen so; if moreover no
dependency is gone without an end, exactly if each was completed or skipped. -/
theorem waits_end_well_iff (starts : first.runner = .ofTask task seed)
    (done : watch.runner.phase = .waiting [] good) :
    (ReflTransGen Step first watch → good = true → ∀ dependency ∈ task.dependsOn,
      ∃ moment, ReflTransGen Step first moment ∧ ReflTransGen Step moment watch ∧
        ∃ handle, moment.handle? dependency = some handle ∧ handle.LetsPass) ∧
    (ReflTransGen Steady first watch →
      (good = true ↔ ∀ dependency ∈ task.dependsOn,
        ∃ handle, watch.handle? dependency = some handle ∧ handle.LetsPass) ∧
      ((∀ dependency ∈ task.dependsOn, ∀ handle, watch.handle? dependency = some handle →
          handle.gone = true → handle.state.isTerminal = true) →
        (good = true ↔ ∀ dependency ∈ task.dependsOn,
          ∃ handle, watch.handle? dependency = some handle ∧ handle.state.Clears))) := by
  constructor
  · intro reached well dependency depends
    obtain ⟨heard, split, fine, answers⟩ := exists_heard id starts reached done
    rw [split, List.append_nil] at depends
    obtain ⟨entry, member, rfl⟩ := List.mem_map.1 depends
    obtain ⟨moment, since, later, answer⟩ := answers entry member
    exact ⟨moment, since, later, letsPass_of_answers answer (fine.1 well entry member)⟩
  · intro reached
    have passes := passes_iff starts reached done
    refine ⟨passes, ?_⟩
    intro finished
    rw [passes]
    constructor
    · intro passed dependency depends
      obtain ⟨handle, found, lets⟩ := passed dependency depends
      refine ⟨handle, found, lets.resolve_right ?_⟩
      rintro ⟨gone, active⟩
      cases active.symm.trans (finished dependency depends handle found gone)
    · intro cleared dependency depends
      obtain ⟨handle, found, clears⟩ := cleared dependency depends
      exact ⟨handle, found, Or.inl clears⟩

/-! ## A dependency that dies while it runs -/

theorem keepsEnds_seeing {name : String} {old : TaskState} {handle : Handle}
    (known : watch.handle? name = some ⟨old, false⟩)
    (kept : old.isTerminal = true → handle.state = old) :
    watch.KeepsEnds (watch.seeing name handle) := by
  intro other before found ended
  by_cases same : other = name
  · subst same
    cases found.symm.trans known
    rw [handle?_seeing_self, Option.map_some, kept ended]
  · rw [handle?_seeing_of_ne same, found, Option.map_some]

theorem Steady.publish {name : String} {old : TaskState}
    (known : watch.handle? name = some ⟨old, false⟩) (active : old.isTerminal = false)
    (state : TaskState) : watch.Steady (watch.seeing name ⟨state, false⟩) :=
  ⟨.publish known state, keepsEnds_seeing known fun ended => by rw [active] at ended; cases ended⟩

theorem Steady.die {name : String} {last : TaskState}
    (known : watch.handle? name = some ⟨last, false⟩) :
    watch.Steady (watch.seeing name ⟨last, true⟩) :=
  ⟨.die known, keepsEnds_seeing known fun _ => rfl⟩

theorem Steady.turn (scene : Scene) {after : Scene} {runner : Runner}
    (taken : watch.runner.step? watch.handle? scene = some (runner, after)) :
    watch.Steady { watch with runner } :=
  ⟨.turn taken, fun _ _ found _ => by rw [found, Option.map_some]⟩

/-- A task with two dependencies. -/
def harvest : Task := ⟨"harvest", "Sleep", ["sown", "watered"], 1, .zero, .null⟩

/-- The runner of the task at its start, with both dependencies at theirs. -/
def atStart : Watch where
  runner := .ofTask harvest (.fresh false)
  handle? name := if name ∈ harvest.dependsOn then some ⟨.init, false⟩ else none

def idle : Scene := ⟨.ofLimit 0, .empty, [], [], false⟩

theorem dead_dependency_lets_pass :
    ∃ watch, ReflTransGen Steady atStart watch ∧
      watch.runner.phase = .waiting [] true ∧ watch.handle? "watered" = some ⟨.running, true⟩ ∧
      ∀ dependency ∈ harvest.dependsOn,
        ∃ handle, watch.handle? dependency = some handle ∧ handle.LetsPass := by
  obtain ⟨watch, reached, done, dead⟩ : ∃ watch,
      ReflTransGen Steady atStart watch ∧ watch.runner.phase = .waiting [] true ∧
        watch.handle? "watered" = some ⟨.running, true⟩ := by
    have waiting := (((ReflTransGen.refl.tail (@Steady.turn atStart idle _ _ rfl)).tail
      (.turn idle rfl)).tail (.turn idle rfl)).tail (.turn idle rfl)
    have sown := waiting.tail (@Steady.publish _ "sown" _ rfl rfl .completed)
    have dead := (sown.tail (@Steady.publish _ "watered" _ rfl rfl .running)).tail
      (@Steady.die _ "watered" _ rfl)
    exact ⟨_, (dead.tail (.turn idle rfl)).tail (.turn idle rfl), rfl, rfl⟩
  exact ⟨watch, reached, done, dead, ((waits_end_well_iff rfl done).2 reached).1.1 rfl⟩

end Watch

end JobGraph
