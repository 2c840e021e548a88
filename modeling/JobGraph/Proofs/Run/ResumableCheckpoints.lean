import JobGraph.Proofs.Checkpoint.Codec
import JobGraph.Proofs.Run.Checkpoints
import JobGraph.Proofs.Run.Resume

/-!
# Checkpoints can be resumed

Every checkpoint of a run, whether it was written from time to time or at the end, is read back from
its bytes as the snapshot that was handed over, and this snapshot fits the graph of the run.  The
states in it are a replay of events, so they place every task of the graph and no other name.
-/

namespace JobGraph.Run

variable {graph : Graph} {seeds : KeyMap Seed} {store : Store} {run : Run} {ledger : Ledger}

/-- A snapshot that was built in a run fits the graph of the run. -/
theorem Recorded.exists_plan (recorded : Recorded graph seeds store run ledger)
    (sound : graph.Sound) {built : Built} (member : built ∈ ledger.snapshots) :
    ∃ plan, built.snapshot.plan graph = .ok plan ∧ plan.store = built.snapshot.store := by
  have consistent := recorded.documents.built built member
  have places := (recorded.orderly.sound.take built.seen).places
  rw [← consistent.states] at places
  obtain ⟨plan, planned, kept, -⟩ :=
    Snapshot.exists_plan places sound.distinct built.snapshot.store
  exact ⟨plan, planned, kept⟩

/-- Every snapshot that a run hands over to be kept is read back from the bytes of its checkpoint,
and a second run can be planned from it with the store that it holds. -/
theorem checkpoints_can_be_resumed {tasks : List Task} (accepted : Graph.ofTasks tasks = .ok graph)
    {limit : Nat} {cancelled keeps saves : Bool} {slot : Option Snapshot} {steps : List Step}
    (course :
      (Run.start graph limit seeds store cancelled keeps saves slot).steps? steps = some run)
    {snapshot : Snapshot}
    (handed : run.saver = .writing snapshot ∨ ∃ accepted, ⟨snapshot, accepted⟩ ∈ run.writes)
    (plain : snapshot.store.Plain) (shallow : snapshot.toValue.depth ≤ Json.maximumDepth)
    (writtenAt : Timestamp) (valid : writtenAt.Valid) :
    Checkpoint.decodeBytes (Text.encodeUtf8 (Checkpoint.encode writtenAt snapshot)) =
        .ok snapshot ∧
      ∃ plan, snapshot.plan graph = .ok plan ∧ plan.store = snapshot.store := by
  obtain ⟨ledger, recorded⟩ : ∃ ledger, Recorded graph seeds store run ledger :=
    ⟨_, Recorded.start.steps course⟩
  obtain ⟨built, member, same⟩ : ∃ built ∈ ledger.snapshots, built.snapshot = snapshot := by
    rcases handed with writing | ⟨accepted, written⟩
    · exact recorded.documents.writing snapshot writing
    · exact recorded.documents.written _ written
  refine ⟨?_, same ▸ recorded.exists_plan (Graph.sound_of_ofTasks accepted) member⟩
  rw [Checkpoint.decodeBytes_encodeUtf8, Checkpoint.decode_encode valid plain, if_pos shallow]

/-- The checkpoint that is written while the second of two tasks is still to come. -/
theorem saved_pair_can_be_resumed :
    ∃ run snapshot plan,
      (Run.start Graph.pair 1 .empty .empty false true true none).steps? savedPairSteps = some run ∧
      run.writes = [⟨snapshot, true⟩] ∧ snapshot.store.find? "answer" = some .null ∧
      Checkpoint.decodeBytes
        (Text.encodeUtf8 (Checkpoint.encode ⟨⟨2026, 4, 3⟩, 23, 59, 59, 120000000⟩ snapshot)) =
          .ok snapshot ∧
      snapshot.plan Graph.pair = .ok plan ∧ plan.store = snapshot.store := by
  obtain ⟨run, snapshot, reached, written, entries⟩ : ∃ run snapshot,
      (Run.start Graph.pair 1 .empty .empty false true true none).steps? savedPairSteps =
        some run ∧ run.writes = [⟨snapshot, true⟩] ∧
        snapshot.store.entries = [("answer", .null)] := ⟨_, _, rfl, rfl, rfl⟩
  have shallow : snapshot.toValue.depth ≤ Json.maximumDepth := by
    rw [Snapshot.depth_le_iff snapshot (by decide), entries]
    decide
  have plain : snapshot.store.Plain := by
    intro entry listed
    rw [entries, List.mem_singleton] at listed
    rw [listed]
    exact ⟨trivial, trivial, trivial⟩
  obtain ⟨read, plan, planned, kept⟩ := checkpoints_can_be_resumed Graph.pair_accepted reached
    (Or.inr ⟨true, written ▸ List.mem_cons_self⟩) plain shallow
    ⟨⟨2026, 4, 3⟩, 23, 59, 59, 120000000⟩
    ⟨⟨by decide, by decide, by decide⟩, by decide, by decide, by decide⟩
  have found : snapshot.store.find? "answer" = some .null := by
    rw [KeyMap.find?, entries]
    rfl
  exact ⟨run, snapshot, plan, reached, written, found, read, planned, kept⟩

end JobGraph.Run
