import JobGraph.Proofs.Run.Ledger

/-!
# Checkpoints agree with the store

The two halves of a checkpoint are looked at one after the other, while the run goes on.  They fit
all the same: a runner merges what an attempt wrote before it announces what comes after the
attempt, and the saver looks at the states before it looks at the store.  So a checkpoint whose
states tell that an attempt is over holds what the attempt wrote.
-/

namespace JobGraph

/-- Every attempt whose task was moved within the first `seen` events is merged. -/
def Covers (merges : List Merge) (returns : List Return) (events : List Event)
    (seen : Nat) : Prop :=
  ∀ attempt ∈ returns, attempt.FollowedBefore events seen → attempt.merge ∈ merges

/-- The ledger and the events have grown; an attempt that is new in the ledger came back after all
events so far. -/
structure Ledger.Grows (events : List Event) (ledger : Ledger) (later : List Event)
    (next : Ledger) :
    Prop where
  sent : events <+: later
  merged : ledger.merges <+: next.merges
  returned : ∀ attempt ∈ next.returns, attempt ∈ ledger.returns ∨ attempt.sent = events.length

/-- The store of a snapshot is the one after some of the merges, and these cover its states. -/
structure Consistent (names : List String) (store : Store) (events : List Event) (ledger : Ledger)
    (built : Built) : Prop where
  seen : built.seen ≤ events.length
  states : built.snapshot.states =
    History.replay (StateMap.allIn names .init) (events.take built.seen)
  stored : ∃ merged ≤ ledger.merges.length,
    store.Becomes (Merge.allWrites (ledger.merges.take merged)) built.snapshot.store ∧
      Covers (ledger.merges.take merged) ledger.returns events built.seen

section Growth

variable {events later : List Event} {ledger next : Ledger} {seen : Nat}

theorem Covers.grow {merges further : List Merge}
    (covers : Covers merges ledger.returns events seen)
    (grows : ledger.Grows events later next) (within : seen ≤ events.length)
    (more : merges ⊆ further) : Covers further next.returns later seen := by
  intro attempt member followed
  rcases grows.returned attempt member with earlier | isNew
  · exact more (covers attempt earlier (followed.of_isPrefix grows.sent within))
  · exact absurd followed (Return.not_followedBefore (isNew ▸ within))

/-- What is consistent stays so. -/
theorem Consistent.grow {names : List String} {store : Store} {built : Built}
    (consistent : Consistent names store events ledger built)
    (grows : ledger.Grows events later next) : Consistent names store later next built := by
  obtain ⟨merged, within, stored, covers⟩ := consistent.stored
  have same := History.take_of_isPrefix grows.merged within
  refine ⟨Nat.le_trans consistent.seen grows.sent.length_le, ?_, merged,
    Nat.le_trans within grows.merged.length_le, ?_, ?_⟩
  · rw [History.take_of_isPrefix grows.sent consistent.seen]
    exact consistent.states
  · rw [same]
    exact stored
  · rw [same]
    exact covers.grow grows consistent.seen (List.Subset.refl _)

end Growth

namespace Run

variable {graph : Graph} {seeds : KeyMap Seed} {store : Store} {run next : Run} {ledger : Ledger}
  {step : Step}

/-- What the saver and the conductor hold fits the ledger, and its snapshots are consistent. -/
structure Documents (graph : Graph) (store : Store) (run : Run) (ledger : Ledger) : Prop where
  viewed : ∀ states, run.saver = .viewed states →
    ledger.viewed ≤ run.scene.events.length ∧
      states = History.replay (StateMap.allIn graph.names .init)
        (run.scene.events.take ledger.viewed) ∧
      Covers ledger.merges ledger.returns run.scene.events ledger.viewed
  built : ∀ built ∈ ledger.snapshots,
    Consistent graph.names store run.scene.events ledger built
  writing : ∀ snapshot, run.saver = .writing snapshot →
    ∃ built ∈ ledger.snapshots, built.snapshot = snapshot
  written : ∀ write ∈ run.writes, ∃ built ∈ ledger.snapshots, built.snapshot = write.snapshot

theorem Accounts.covers (accounts : Accounts store run ledger) (orderly : Orderly graph seeds run) :
    Covers ledger.merges ledger.returns run.scene.events run.aggregator.taken :=
  fun _ member followed => accounts.merged_of_followed member orderly.taken followed

/-- The store of this moment goes with the states of this moment or of an earlier one. -/
theorem Accounts.consistent (accounts : Accounts store run ledger) {names : List String}
    {states : StateMap} {seen : Nat} (within : seen ≤ run.scene.events.length)
    (same : states = History.replay (StateMap.allIn names .init) (run.scene.events.take seen))
    (covers : Covers ledger.merges ledger.returns run.scene.events seen) :
    Consistent names store run.scene.events ledger ⟨⟨states, run.scene.store⟩, seen⟩ := by
  refine ⟨within, same, ledger.merges.length, Nat.le_refl _, ?_, ?_⟩
  · rw [List.take_length]
    exact accounts.stored
  · rw [List.take_length]
    exact covers

theorem Ledger.Grows.of_act (ledger : Ledger) {before runner : Runner} {scene : Scene}
    (found : run.find? before.name = some before)
    (act : before.Act run.handle? run.scene step runner scene) :
    ledger.Grows run.scene.events scene.events (run.note ledger step) ∧
      (run.note ledger step).viewed = ledger.viewed ∧
        (run.note ledger step).snapshots = ledger.snapshots := by
  have longer := act.events_prefix
  have noted := noted_of_act ledger found act
  generalize run.note ledger step = after at noted
  cases noted with
  | returned phase =>
      refine ⟨⟨longer, List.prefix_refl _, ?_⟩, rfl, rfl⟩
      intro attempt member
      rcases List.mem_append.1 member with earlier | isNew
      · exact Or.inl earlier
      · cases List.mem_singleton.1 isNew
        exact Or.inr rfl
  | merged phase events added =>
      exact ⟨⟨longer, List.prefix_append _ _, fun _ member => Or.inl member⟩, rfl, rfl⟩
  | nothing => exact ⟨⟨longer, List.prefix_refl _, fun _ member => Or.inl member⟩, rfl, rfl⟩

namespace Documents

private theorem grow {after : Ledger} (documents : Documents graph store run ledger)
    (grows : ledger.Grows run.scene.events next.scene.events after)
    (sameViewed : after.viewed = ledger.viewed) (sameSnapshots : after.snapshots = ledger.snapshots)
    (saver : next.saver = run.saver) (writes : next.writes = run.writes) :
    Documents graph store next after := by
  refine ⟨?_, ?_, ?_, ?_⟩
  · intro states viewed
    obtain ⟨within, same, covers⟩ := documents.viewed states (saver ▸ viewed)
    rw [sameViewed]
    refine ⟨Nat.le_trans within grows.sent.length_le, ?_, ?_⟩
    · rw [History.take_of_isPrefix grows.sent within]
      exact same
    · exact covers.grow grows within grows.merged.subset
  · intro built member
    rw [sameSnapshots] at member
    exact (documents.built built member).grow grows
  · intro snapshot writing
    rw [sameSnapshots]
    exact documents.writing snapshot (saver ▸ writing)
  · intro write member
    rw [sameSnapshots]
    exact documents.written write (writes ▸ member)

/-- A consistent snapshot can be added. -/
private theorem add {built : Built} (documents : Documents graph store run ledger)
    (consistent : Consistent graph.names store run.scene.events ledger built) :
    Documents graph store run { ledger with snapshots := ledger.snapshots ++ [built] } := by
  have grows : ledger.Grows run.scene.events run.scene.events
      { ledger with snapshots := ledger.snapshots ++ [built] } :=
    ⟨List.prefix_refl _, List.prefix_refl _, fun _ member => Or.inl member⟩
  refine ⟨documents.viewed, ?_, ?_, ?_⟩
  · intro other member
    rcases List.mem_append.1 member with earlier | isNew
    · exact (documents.built other earlier).grow grows
    · cases List.mem_singleton.1 isNew
      exact consistent.grow grows
  · intro snapshot writing
    obtain ⟨other, member, same⟩ := documents.writing snapshot writing
    exact ⟨other, List.mem_append_left _ member, same⟩
  · intro write member
    obtain ⟨other, otherMember, same⟩ := documents.written write member
    exact ⟨other, List.mem_append_left _ otherMember, same⟩

/-- A write of a snapshot that was built keeps the documents in order. -/
private theorem write {snapshot : Snapshot} {accepted : Bool}
    (documents : Documents graph store run ledger)
    (known : ∃ built ∈ ledger.snapshots, built.snapshot = snapshot) :
    Documents graph store (run.write snapshot accepted) ledger := by
  refine ⟨documents.viewed, documents.built, documents.writing, ?_⟩
  intro write member
  rcases List.mem_append.1 member with earlier | isNew
  · exact documents.written write earlier
  · cases List.mem_singleton.1 isNew
    exact known

/-- A saver that holds nothing has nothing to account for. -/
private theorem idle {saver : SaverPhase} {conductor : ConductorPhase} {complete : Bool}
    {slot : Option Snapshot} (documents : Documents graph store run ledger)
    (notViewed : ∀ states, saver ≠ .viewed states)
    (notWriting : ∀ snapshot, saver ≠ .writing snapshot) :
    Documents graph store { run with saver, conductor, complete, slot } ledger :=
  ⟨fun states viewed => absurd viewed (notViewed states), documents.built,
    fun snapshot writing => absurd writing (notWriting snapshot), documents.written⟩

private theorem saver {accepted : Bool} (documents : Documents graph store run ledger)
    (accounts : Accounts store run ledger) (orderly : Orderly graph seeds run)
    (taken : run.saverStep? accepted = some next) :
    Documents graph store next (run.note ledger (.saver accepted)) := by
  cases saver : run.saver with
  | waiting =>
      simp only [saverStep?, saver] at taken
      split at taken
      · cases taken
        simp only [note, saver]
        exact documents.idle (fun _ same => by cases same) fun _ same => by cases same
      · cases taken
  | viewing =>
      simp only [saverStep?, saver] at taken
      cases taken
      simp only [note, saver]
      refine ⟨?_, ?_, fun _ same => (by cases same), documents.written⟩
      · intro states viewed
        cases viewed
        exact ⟨orderly.taken, orderly.mapped, accounts.covers orderly⟩
      · exact fun built member => (documents.built built member).grow
          ⟨List.prefix_refl _, List.prefix_refl _, fun _ member => Or.inl member⟩
  | viewed states =>
      simp only [saverStep?, saver] at taken
      cases taken
      simp only [note, saver]
      obtain ⟨within, same, covers⟩ := documents.viewed states saver
      have added := documents.add (accounts.consistent within same covers)
      refine ⟨fun _ same => (by cases same), added.built, ?_, added.written⟩
      intro snapshot writing
      cases writing
      exact ⟨_, List.mem_append_right _ List.mem_cons_self, rfl⟩
  | writing snapshot =>
      simp only [saverStep?, saver] at taken
      cases taken
      simp only [note, saver]
      have calm : Documents graph store { run with saver := .waiting } ledger :=
        documents.idle (fun _ same => by cases same) fun _ same => by cases same
      exact calm.write (documents.writing snapshot saver)
  | stopped =>
      simp only [saverStep?, saver] at taken
      cases taken

private theorem conductor {accepted : Bool} (documents : Documents graph store run ledger)
    (accounts : Accounts store run ledger) (orderly : Orderly graph seeds run)
    (taken : run.conductorStep? accepted = some next) :
    Documents graph store next (run.note ledger (.conductor accepted)) := by
  cases conductor : run.conductor with
  | settling =>
      simp only [conductorStep?, conductor] at taken
      split at taken
      · cases taken
        simp only [note, conductor, reduceCtorEq, false_and, if_false]
        exact ⟨documents.viewed, documents.built, documents.writing, documents.written⟩
      · cases taken
  | collecting =>
      simp only [conductorStep?, conductor] at taken
      split at taken
      · cases taken
        simp only [note, conductor, reduceCtorEq, false_and, if_false]
        exact ⟨documents.viewed, documents.built, documents.writing, documents.written⟩
      · cases taken
  | finalizing =>
      simp only [conductorStep?, conductor] at taken
      cases taken
      cases keeps : run.keeps with
      | false =>
          simp only [note, conductor, keeps, Bool.false_eq_true, false_and, and_false, if_false,
            finalize, Bool.not_false, if_true]
          exact ⟨documents.viewed, documents.built, documents.writing, documents.written⟩
      | true =>
          cases final : FinalCheckpoint.ofStates run.aggregator.states with
          | cleared =>
              simp only [note, conductor, keeps, final, reduceCtorEq, and_false, if_false, finalize,
                Bool.not_true, Bool.false_eq_true]
              exact ⟨documents.viewed, documents.built, documents.writing, documents.written⟩
          | written =>
              simp only [note, conductor, keeps, final, and_self, if_true, finalize, Bool.not_true,
                Bool.false_eq_true, if_false]
              have added := documents.add
                (accounts.consistent orderly.taken orderly.mapped (accounts.covers orderly))
              refine Documents.write ⟨added.viewed, added.built, added.writing, added.written⟩ ?_
              exact ⟨_, List.mem_append_right _ List.mem_cons_self, rfl⟩
  | done final =>
      simp only [conductorStep?, conductor] at taken
      cases taken

/-- No step of a run spoils a checkpoint. -/
theorem change (documents : Documents graph store run ledger) (accounts : Accounts store run ledger)
    (orderly : Orderly graph seeds run) (change : run.Change step next) :
    Documents graph store next (run.note ledger step) := by
  cases change with
  | act found act =>
      obtain ⟨grows, sameViewed, sameSnapshots⟩ := Ledger.Grows.of_act ledger found act
      exact documents.grow grows sameViewed sameSnapshots rfl rfl
  | line =>
      exact documents.grow
        ⟨List.prefix_append _ _, List.prefix_refl _, fun _ member => Or.inl member⟩ rfl rfl rfl rfl
  | cancel | aggregate =>
      exact documents.grow
        ⟨List.prefix_refl _, List.prefix_refl _, fun _ member => Or.inl member⟩ rfl rfl rfl rfl
  | aside runners scene aggregator aside taken =>
      cases step with
      | tick =>
          simp only [step?] at taken
          split at taken
          · cases taken
            refine documents.idle ?_ ?_
            · intro states
              split <;> simp
            · intro snapshot
              split <;> simp
          · cases taken
      | saver accepted => exact documents.saver accounts orderly taken
      | conductor accepted => exact documents.conductor accounts orderly taken
      | runner | overtaken | line | ended | rested | cancel | aggregator => exact absurd aside id

end Documents

/-! ## Whole runs -/

/-- A run together with its ledger. -/
structure Recorded (graph : Graph) (seeds : KeyMap Seed) (store : Store) (run : Run)
    (ledger : Ledger) : Prop where
  orderly : Orderly graph seeds run
  accounts : Accounts store run ledger
  documents : Documents graph store run ledger

namespace Recorded

theorem start {limit : Nat} {cancelled keeps saves : Bool} {slot : Option Snapshot} :
    Recorded graph seeds store (start graph limit seeds store cancelled keeps saves slot)
      .empty := by
  refine ⟨Orderly.start, Accounts.start, ?_, fun _ member => (by cases member), ?_,
    fun _ member => (by cases member)⟩
  · intro states viewed
    simp only [Run.start] at viewed
    split at viewed <;> cases viewed
  · intro snapshot writing
    simp only [Run.start] at writing
    split at writing <;> cases writing

theorem change (recorded : Recorded graph seeds store run ledger) (change : run.Change step next) :
    Recorded graph seeds store next (run.note ledger step) :=
  ⟨recorded.orderly.change change, recorded.accounts.change recorded.orderly change,
    recorded.documents.change recorded.accounts recorded.orderly change⟩

theorem steps {steps : List Step} {last : Run} (recorded : Recorded graph seeds store run ledger)
    (taken : run.steps? steps = some last) :
    Recorded graph seeds store last (run.ledgerAfter ledger steps) :=
  ledgerAfter_invariant taken recorded fun recorded change => recorded.change change

/-- A task whose attempt came back can be completed only by a move after that. -/
theorem followedBefore_of_completed (recorded : Recorded graph seeds store run ledger)
    {attempt : Return} (member : attempt ∈ ledger.returns) {seen : Nat}
    (completed : History.stateOf (run.scene.events.take seen) attempt.merge.task = .completed) :
    attempt.FollowedBefore run.scene.events seen := by
  obtain ⟨_, running⟩ := recorded.accounts.running attempt member
  by_cases late : seen ≤ attempt.sent
  · have stays := recorded.orderly.sound.stateOf_of_terminal (by rw [completed]; rfl) late
    rw [running, completed] at stays
    cases stays
  · have changed : History.stateOf (run.scene.events.take seen) attempt.merge.task ≠
        History.stateOf (run.scene.events.take attempt.sent) attempt.merge.task := by
      rw [running, completed]
      decide
    exact History.exists_move_between (by omega) changed

end Recorded

/-- Every checkpoint that is built holds under each key what the last write to it in some of the
merges has left, and among these merges are all attempts that its states know to be over.  In
particular nothing that a task wrote is missing from a checkpoint in which the task is completed:
it is there, or a later write has gone over it. -/
theorem checkpoints_cover_states {limit : Nat} {cancelled keeps saves : Bool}
    {slot : Option Snapshot} {steps : List Step}
    (course : (Run.start graph limit seeds store cancelled keeps saves slot).steps? steps =
      some run)
    (told : (Run.start graph limit seeds store cancelled keeps saves slot).ledgerAfter .empty
      steps = ledger) :
    (∀ snapshot, run.saver = .writing snapshot ∨ (∃ accepted, ⟨snapshot, accepted⟩ ∈ run.writes) →
      ∃ built ∈ ledger.snapshots, built.snapshot = snapshot) ∧
      ∀ built ∈ ledger.snapshots,
        built.snapshot.states = History.replay (StateMap.allIn graph.names .init)
          (run.scene.events.take built.seen) ∧
        ∃ merged ≤ ledger.merges.length,
          store.Becomes (Merge.allWrites (ledger.merges.take merged)) built.snapshot.store ∧
          ∀ attempt ∈ ledger.returns,
            attempt.FollowedBefore run.scene.events built.seen ∨
                built.snapshot.states.stateOf? attempt.merge.task = some .completed →
              attempt.merge ∈ ledger.merges.take merged ∧
                ∀ write ∈ attempt.merge.writes, built.snapshot.store.Shows
                  (Merge.allWrites (ledger.merges.take merged)) write := by
  have recorded : Recorded graph seeds store run ledger := told ▸ Recorded.start.steps course
  refine ⟨?_, ?_⟩
  · rintro snapshot (writing | ⟨accepted, written⟩)
    · exact recorded.documents.writing snapshot writing
    · exact recorded.documents.written _ written
  intro built member
  have consistent := recorded.documents.built built member
  obtain ⟨merged, within, stored, covers⟩ := consistent.stored
  refine ⟨consistent.states, merged, within, stored, ?_⟩
  intro attempt attemptMember known
  have followed : attempt.FollowedBefore run.scene.events built.seen := by
    rcases known with followed | completed
    · exact followed
    · apply recorded.followedBefore_of_completed attemptMember
      have places := (recorded.orderly.sound.take built.seen).places
      rw [← consistent.states] at places
      by_cases listed : attempt.merge.task ∈ graph.names
      · exact (places.stateOf?_eq_some_iff listed).1 completed
      · rw [places.stateOf?_of_unlisted listed] at completed
        cases completed
  have among := covers attempt attemptMember followed
  exact ⟨among, fun write listed => stored.shows (Merge.mem_allWrites among listed)⟩

/-- The steps of the first of two tasks, which is saved as soon as its end is published. -/
def savedPairSteps : List Step :=
  List.replicate 9 (.runner "first") ++
    [.ended "first" (.report ⟨false, false, [.set "answer" .null]⟩)] ++
      List.replicate 2 (.runner "first") ++ List.replicate 3 .aggregator ++
        [.tick, .saver true, .saver true, .saver true]

theorem saved_pair_covers_first :
    ∃ run, (Run.start Graph.pair 1 .empty .empty false true true none).steps? savedPairSteps =
      some run ∧ ∃ snapshot, run.slot = some snapshot ∧
        snapshot.states.stateOf? "first" = some .completed ∧
        snapshot.store.find? "answer" = some .null := by
  obtain ⟨run, reached, snapshot, kept, written, completed⟩ : ∃ run,
      (Run.start Graph.pair 1 .empty .empty false true true none).steps? savedPairSteps = some run ∧
        ∃ snapshot, run.slot = some snapshot ∧ run.writes = [⟨snapshot, true⟩] ∧
          snapshot.states.stateOf? "first" = some .completed := ⟨_, rfl, _, rfl, rfl, rfl⟩
  obtain ⟨ledger, told, returned, merges⟩ : ∃ ledger,
      (Run.start Graph.pair 1 .empty .empty false true true none).ledgerAfter .empty
          savedPairSteps = ledger ∧
        ledger.returns = [⟨⟨"first", 1, [.set "answer" .null]⟩, 2⟩] ∧
        ledger.merges = [⟨"first", 1, [.set "answer" .null]⟩] := ⟨_, rfl, rfl, rfl⟩
  obtain ⟨known, covered⟩ := checkpoints_cover_states reached told
  obtain ⟨built, member, same⟩ := known snapshot (Or.inr ⟨true, written ▸ List.mem_cons_self⟩)
  cases same
  obtain ⟨_, merged, _, stored, covers⟩ := covered built member
  obtain ⟨among, -⟩ := covers _ (returned ▸ List.mem_cons_self) (Or.inr completed)
  rw [merges] at among stored
  refine ⟨run, reached, built.snapshot, kept, completed, ?_⟩
  cases merged with
  | zero => cases among
  | succ more =>
    rw [stored, List.take_of_length_le (Nat.succ_le_succ (Nat.zero_le more))]
    rfl

end Run

end JobGraph
