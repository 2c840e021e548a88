import JobGraph.Proofs.Run.Records
import Mathlib.Data.List.Nodup

/-!
# Permits

Nobody holds two permits or waits while holding one, and nobody waits while a permit is free
(`Gate.Fair`).  `Run.Permitted` ties the gate to the runners: only a runner between its call for a
permit and its return of it holds one, and only a runner that waits for a permit stands in the
queue.
-/

namespace JobGraph

namespace Gate

/-- Nobody stands twice at the gate, and nobody waits while there is room. -/
structure Fair (gate : Gate) : Prop where
  distinct : (gate.held ++ gate.waiting).Nodup
  full : gate.waiting ≠ [] → gate.hasRoom = false

/-- What one participant does at the gate may bring others from the queue to a permit, and nothing
else. -/
structure Spares (name : String) (gate next : Gate) : Prop where
  held : ∀ other, other ≠ name → other ∈ next.held → other ∈ gate.held ∨ other ∈ gate.waiting
  waiting : ∀ other, other ≠ name → other ∈ next.waiting → other ∈ gate.waiting
  kept : ∀ other, other ≠ name → other ∈ gate.held ∨ other ∈ gate.waiting →
    other ∈ next.held ∨ other ∈ next.waiting

variable {gate middle next : Gate} {name : String}

theorem Spares.refl : Spares name gate gate :=
  ⟨fun _ _ holds => Or.inl holds, fun _ _ waits => waits, fun _ _ stands => stands⟩

theorem Spares.trans (first : Spares name gate middle) (second : Spares name middle next) :
    Spares name gate next := by
  refine ⟨?_, ?_, ?_⟩
  · intro other different holds
    rcases second.held other different holds with held | waits
    · exact first.held other different held
    · exact Or.inr (first.waiting other different waits)
  · intro other different waits
    exact first.waiting other different (second.waiting other different waits)
  · intro other different stands
    exact second.kept other different (first.kept other different stands)

/-- Permits go to the front of the queue, until there are no more. -/
theorem grantFrom_spec {queue : List String} :
    ∀ gate : Gate, (gate.held ++ queue).Nodup →
      ∃ granted, (gate.grantFrom queue).held = gate.held ++ granted ∧
        queue = granted ++ (gate.grantFrom queue).waiting ∧
          ((gate.grantFrom queue).waiting ≠ [] → (gate.grantFrom queue).hasRoom = false) := by
  induction queue with
  | nil =>
      intro gate _
      exact ⟨[], (List.append_nil _).symm, rfl, fun some => absurd rfl some⟩
  | cons first rest inductionHypothesis =>
      intro gate distinct
      rw [grantFrom]
      by_cases room : gate.hasRoom = true
      · have fresh : first ∉ gate.held := by
          intro holds
          exact (List.nodup_middle.1 distinct |> List.nodup_cons.1).1 (List.mem_append_left _ holds)
        rw [if_pos room, if_neg fresh]
        have shifted : (gate.held ++ [first] ++ rest).Nodup := by
          rw [List.append_assoc, List.singleton_append]
          exact distinct
        obtain ⟨granted, held, queue, full⟩ := inductionHypothesis
          { gate with held := gate.held ++ [first] } shifted
        refine ⟨first :: granted, ?_, ?_, full⟩
        · rw [held, List.append_assoc, List.singleton_append]
        · rw [List.cons_append, ← queue]
      · rw [if_neg room]
        exact ⟨[], (List.append_nil _).symm, rfl, fun _ => Bool.eq_false_iff.2 room⟩

theorem grantFrom_of_full (full : gate.hasRoom = false) (queue : List String) :
    gate.grantFrom queue = { gate with waiting := queue } := by
  cases queue with
  | nil => rfl
  | cons first rest => rw [grantFrom, full, if_neg Bool.false_ne_true]

/-- A gate that has served its queue is fair, and everybody in the line is still in it. -/
theorem grantFrom_fair (gate : Gate) {queue : List String} (distinct : (gate.held ++ queue).Nodup) :
    (gate.grantFrom queue).Fair ∧
      (∀ other, other ∈ (gate.grantFrom queue).held → other ∈ gate.held ∨ other ∈ queue) ∧
      (∀ other, other ∈ (gate.grantFrom queue).waiting → other ∈ queue) ∧
      ∀ other, other ∈ gate.held ∨ other ∈ queue →
        other ∈ (gate.grantFrom queue).held ∨ other ∈ (gate.grantFrom queue).waiting := by
  obtain ⟨granted, held, split, full⟩ := grantFrom_spec gate distinct
  have line :
      (gate.grantFrom queue).held ++ (gate.grantFrom queue).waiting = gate.held ++ queue := by
    rw [held, List.append_assoc, ← split]
  refine ⟨⟨line ▸ distinct, full⟩, ?_, ?_, ?_⟩
  · intro other holds
    have member := List.mem_append_left (gate.grantFrom queue).waiting holds
    rw [line] at member
    exact List.mem_append.1 member
  · intro other waits
    rw [split]
    exact List.mem_append_right granted waits
  · intro other stands
    have member := List.mem_append.2 stands
    rw [← line] at member
    exact List.mem_append.1 member

/-- Who comes to the gate gets a permit or a place at the end of the queue. -/
theorem acquire_fair (fair : gate.Fair) (absent : name ∉ gate.held ++ gate.waiting) :
    (gate.acquire name).Fair ∧ Spares name gate (gate.acquire name) ∧
      (name ∈ (gate.acquire name).held ∨ name ∈ (gate.acquire name).waiting) := by
  have distinct : (gate.held ++ (gate.waiting ++ [name])).Nodup := by
    rw [← List.append_assoc, List.nodup_append]
    refine ⟨fair.distinct, List.nodup_singleton name, ?_⟩
    intro other member last isLast same
    exact absent (List.mem_singleton.1 isLast ▸ same ▸ member)
  obtain ⟨served, held, waiting, kept⟩ :=
    grantFrom_fair { gate with waiting := gate.waiting ++ [name] } distinct
  have queued : ∀ other, other ≠ name → other ∈ gate.waiting ++ [name] → other ∈ gate.waiting := by
    intro other different member
    rcases List.mem_append.1 member with waits | isName
    · exact waits
    · exact absurd (List.mem_singleton.1 isName) different
  refine ⟨served, ⟨?_, ?_, ?_⟩, kept name (Or.inr (List.mem_append_right _ List.mem_cons_self))⟩
  · intro other different holds
    exact (held other holds).imp id (queued other different)
  · intro other different waits
    exact queued other different (waiting other waits)
  · intro other _ stands
    exact kept other (stands.imp id (List.mem_append_left [name]))

/-- Who gives a permit back holds none any more. -/
theorem release_fair (fair : gate.Fair) (notWaiting : name ∉ gate.waiting) :
    (gate.release name).Fair ∧ Spares name gate (gate.release name) ∧
      name ∉ (gate.release name).held ∧ name ∉ (gate.release name).waiting := by
  have parts := List.nodup_append.1 fair.distinct
  have distinct : (gate.held.erase name ++ gate.waiting).Nodup :=
    fair.distinct.sublist (List.Sublist.append List.erase_sublist (List.Sublist.refl _))
  obtain ⟨served, held, waiting, kept⟩ :=
    grantFrom_fair { gate with held := gate.held.erase name } distinct
  refine ⟨served, ⟨?_, ?_, ?_⟩, ?_, ?_⟩
  · intro other _ holds
    exact (held other holds).imp List.mem_of_mem_erase id
  · intro other _ waits
    exact waiting other waits
  · intro other different stands
    exact kept other (stands.imp (List.mem_erase_of_ne different).2 id)
  · intro holds
    rcases held name holds with still | waits
    · exact parts.1.not_mem_erase still
    · exact notWaiting waits
  · intro waits
    exact notWaiting (waiting name waits)

/-- Who stops waiting waits no longer, though a permit may have come meanwhile. -/
theorem cancel_fair (fair : gate.Fair) (name : String) :
    (gate.cancel name).Fair ∧ Spares name gate (gate.cancel name) ∧
      name ∉ (gate.cancel name).waiting := by
  have distinct : (gate.held ++ gate.waiting.filter (· ≠ name)).Nodup :=
    fair.distinct.sublist (List.Sublist.append (List.Sublist.refl _) List.filter_sublist)
  obtain ⟨served, held, waiting, kept⟩ :=
    grantFrom_fair { gate with waiting := gate.waiting.filter (· ≠ name) } distinct
  refine ⟨served, ⟨?_, ?_, ?_⟩, ?_⟩
  · intro other _ holds
    exact (held other holds).imp id List.mem_of_mem_filter
  · intro other _ waits
    exact List.mem_of_mem_filter (waiting other waits)
  · intro other different stands
    exact kept other (stands.imp id fun waits => List.mem_filter.2 ⟨waits, by simp [different]⟩)
  · intro waits
    simpa using (List.mem_filter.1 (waiting name waits)).2

end Gate

/-! ## The gate and the runners -/

/-- The phases of a runner that may hold a permit. -/
def Phase.mayHold : Phase → Bool
  | .ready | .arrived | .waiting _ _ | .asking | .resting _ | .gone => false
  | .announcing _ next | .publishing _ next => next ≠ .wait
  | .queued | .launching | .attempting | .reported _ | .pausing | .leaving => true

namespace Run

variable {graph : Graph} {seeds : KeyMap Seed} {run next : Run} {step : Step}

/-- The gate is fair, and it fits what the runners do. -/
structure Permitted (run : Run) : Prop where
  fair : run.scene.gate.Fair
  holders : ∀ name ∈ run.scene.gate.held,
    ∃ runner, run.find? name = some runner ∧ runner.phase.mayHold = true
  waiters : ∀ name ∈ run.scene.gate.waiting,
    ∃ runner, run.find? name = some runner ∧ runner.phase = .queued
  queued : ∀ name runner, run.find? name = some runner → runner.phase = .queued →
    name ∈ run.scene.gate.held ∨ name ∈ run.scene.gate.waiting

namespace Permitted

theorem start {limit : Nat} {store : Store} {cancelled keeps saves : Bool}
    {slot : Option Snapshot} :
    Permitted (start graph limit seeds store cancelled keeps saves slot) := by
  refine ⟨⟨List.nodup_nil, fun some => absurd rfl some⟩, fun _ member => (by cases member),
    fun _ member => (by cases member), ?_⟩
  intro name runner found phase
  obtain ⟨task, _, same⟩ := List.mem_map.1 (mem_of_find? found)
  cases same
  cases phase

variable {before runner : Runner} {scene : Scene}

theorem not_held (permitted : Permitted run) (found : run.find? before.name = some before)
    (phase : before.phase.mayHold = false) : before.name ∉ run.scene.gate.held := by
  intro holds
  obtain ⟨other, otherFound, may⟩ := permitted.holders _ holds
  cases found.symm.trans otherFound
  exact Bool.false_ne_true (phase.symm.trans may)

theorem not_waiting (permitted : Permitted run) (found : run.find? before.name = some before)
    (phase : before.phase ≠ .queued) : before.name ∉ run.scene.gate.waiting := by
  intro waits
  obtain ⟨other, otherFound, same⟩ := permitted.waiters _ waits
  cases found.symm.trans otherFound
  exact phase same

/-- Where the gate has done nothing wrong to others, only the runner itself is to be looked at. -/
private theorem regate (permitted : Permitted run) (found : run.find? before.name = some before)
    (same : runner.name = before.name) (fair : scene.gate.Fair)
    (spares : Gate.Spares before.name run.scene.gate scene.gate)
    (holds : before.name ∈ scene.gate.held → runner.phase.mayHold = true)
    (waits : before.name ∈ scene.gate.waiting → runner.phase = .queued)
    (stands : runner.phase = .queued →
      before.name ∈ scene.gate.held ∨ before.name ∈ scene.gate.waiting) :
    Permitted { run.put runner with scene } := by
  have look := find?_act found same scene
  refine ⟨fair, ?_, ?_, ?_⟩
  · intro name held
    by_cases here : name = before.name
    · subst here
      exact ⟨runner, by rw [look, if_pos rfl], holds held⟩
    · rw [look, if_neg here]
      rcases spares.held name here held with earlier | waited
      · exact permitted.holders name earlier
      · obtain ⟨other, otherFound, phase⟩ := permitted.waiters name waited
        exact ⟨other, otherFound, by rw [phase]; rfl⟩
  · intro name waiting
    by_cases here : name = before.name
    · subst here
      exact ⟨runner, by rw [look, if_pos rfl], waits waiting⟩
    · rw [look, if_neg here]
      exact permitted.waiters name (spares.waiting name here waiting)
  · intro name other otherFound phase
    rcases found_act found same otherFound with ⟨rfl, rfl⟩ | ⟨elsewhere, earlier⟩
    · exact stands phase
    · exact spares.kept name elsewhere (permitted.queued name other earlier phase)

/-- A runner that does nothing at the gate. -/
private theorem pass_by (permitted : Permitted run) (found : run.find? before.name = some before)
    (same : runner.name = before.name) (gate : scene.gate = run.scene.gate)
    (notQueued : before.phase ≠ .queued) (stillNot : runner.phase ≠ .queued)
    (may : before.phase.mayHold = true → runner.phase.mayHold = true) :
    Permitted { run.put runner with scene } := by
  refine permitted.regate found same (gate ▸ permitted.fair) (gate ▸ Gate.Spares.refl) ?_ ?_ ?_
  · intro holds
    rw [gate] at holds
    obtain ⟨other, otherFound, held⟩ := permitted.holders _ holds
    cases found.symm.trans otherFound
    exact may held
  · intro waits
    rw [gate] at waits
    exact absurd waits (permitted.not_waiting found notQueued)
  · exact fun queued => absurd queued stillNot

private theorem act (permitted : Permitted run) (found : run.find? before.name = some before)
    (act : before.Act run.handle? run.scene step runner scene) :
    Permitted { run.put runner with scene } := by
  have same := act.name
  cases act with
  | pass phase granted =>
      have absent : before.name ∉ run.scene.gate.held ++ run.scene.gate.waiting := by
        intro stands
        rcases List.mem_append.1 stands with holds | waits
        · exact permitted.not_held found (by rw [phase]; rfl) holds
        · exact permitted.not_waiting found (by rw [phase]; exact fun same => by cases same) waits
      obtain ⟨fair, spares, _⟩ := Gate.acquire_fair permitted.fair absent
      refine permitted.regate found same fair spares (fun _ => rfl) ?_
        (fun queued => by cases queued)
      intro waits
      have holds : before.name ∈ (run.scene.gate.acquire before.name).held := by
        simpa [Gate.holds] using granted
      exact absurd rfl ((List.nodup_append.1 fair.distinct).2.2 _ holds _ waits)
  | queue phase denied =>
      have absent : before.name ∉ run.scene.gate.held ++ run.scene.gate.waiting := by
        intro stands
        rcases List.mem_append.1 stands with holds | waits
        · exact permitted.not_held found (by rw [phase]; rfl) holds
        · exact permitted.not_waiting found (by rw [phase]; exact fun same => by cases same) waits
      obtain ⟨fair, spares, stands⟩ := Gate.acquire_fair permitted.fair absent
      exact permitted.regate found same fair spares (fun _ => rfl) (fun _ => rfl) fun _ => stands
  | enter phase granted =>
      refine permitted.regate found same permitted.fair Gate.Spares.refl (fun _ => rfl) ?_
        (fun queued => by cases queued)
      intro waits
      have holds : before.name ∈ run.scene.gate.held := by simpa [Gate.holds] using granted
      exact absurd rfl ((List.nodup_append.1 permitted.fair.distinct).2.2 _ holds _ waits)
  | withdraw phase =>
      obtain ⟨fair, spares, absent⟩ := Gate.cancel_fair permitted.fair before.name
      obtain ⟨served, further, _, gone⟩ := Gate.release_fair fair absent
      exact permitted.regate found same served (spares.trans further) (fun _ => rfl)
        (fun waits => absurd waits gone) (fun queued => by cases queued)
  | release phase | leave phase =>
      have notWaiting := permitted.not_waiting found
        (by rw [phase]; exact fun same => by cases same)
      obtain ⟨fair, spares, notHeld, gone⟩ := Gate.release_fair permitted.fair notWaiting
      exact permitted.regate found same fair spares (fun holds => absurd holds notHeld)
        (fun waits => absurd waits gone) (fun queued => by cases queued)
  | publish phase =>
      rename_i target further
      refine permitted.pass_by found same rfl ?_ ?_ ?_
      · rw [phase]
        exact fun same => by cases same
      · cases further <;> exact fun same => by cases same
      · rw [phase]
        cases further with
        | wait =>
            intro may
            simp [Phase.mayHold] at may
        | launch | pause | leave => exact fun _ => rfl
  | stop phase =>
      refine permitted.pass_by found same rfl ?_ (fun same => by cases same) (fun _ => rfl)
      intro queued
      simp [Phase.heedsStop, queued] at phase
  | start phase | arrive phase | hear phase | miss phase | clear phase | announce phase
  | wake phase =>
      refine permitted.pass_by found same rfl ?_ (fun same => by cases same) ?_
      · rw [phase]
        exact fun same => by cases same
      · rw [phase]
        exact id
  | restore phase | giveUp phase | skip phase | launch phase | finish phase
  | obey phase | succeed phase | exhaust phase | retry phase | fail phase =>
      refine permitted.pass_by found same rfl ?_ (fun same => by cases same) (fun _ => rfl)
      rw [phase]
      exact fun same => by cases same

/-- No step of a run brings the gate and the runners apart. -/
theorem change (permitted : Permitted run) (change : run.Change step next) : Permitted next := by
  cases change with
  | act found act => exact permitted.act found act
  | line | cancel | aggregate =>
      exact ⟨permitted.fair, permitted.holders, permitted.waiters, permitted.queued⟩
  | aside runners scene aggregator =>
      have look := find?_of_runners runners
      refine ⟨scene ▸ permitted.fair, ?_, ?_, ?_⟩
      · rw [scene, look]
        exact permitted.holders
      · rw [scene, look]
        exact permitted.waiters
      · rw [scene, look]
        exact permitted.queued

end Permitted

end Run

end JobGraph
