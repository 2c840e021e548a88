import JobGraph.Proofs.Checkpoint.Codec
import JobGraph.Proofs.Worker.Frames

/-!
# How deep a stored value may nest

A value of the shared store travels in three wrappings: in the frame of the attempt that writes it,
in the request for every later attempt, and in the checkpoint.  The frame wraps it in one object,
the other two wrap it in two.  All readers have the same limit, so a value may be taken from a frame
that no later attempt and no checkpoint can hold (`values_taken_deeper_than_kept`).
-/

namespace JobGraph

open Json (Value maximumDepth)

/-- No value of a store nests so deep that two objects around it are too many. -/
def Store.Shallow (store : Store) : Prop :=
  ∀ entry ∈ store.entries, entry.2.depth + 2 ≤ maximumDepth

instance (store : Store) : Decidable store.Shallow := List.decidableBAll _ _

namespace Store

variable {store : Store}

theorem depthMembers_entries_le_iff (room : Nat) (enough : room + 2 = maximumDepth) :
    Value.depthMembers store.entries ≤ room ↔ store.Shallow := by
  rw [Value.depthMembers_le_iff]
  have fits : ∀ depth : Nat, depth ≤ room ↔ depth + 2 ≤ maximumDepth := fun depth => by omega
  simp only [fits, Shallow]

theorem Shallow.depth_of_find? (shallow : store.Shallow) {key : String} {value : Value}
    (known : store.find? key = some value) : value.depth + 2 ≤ maximumDepth :=
  shallow (key, value) (Entries.mem_of_find? known)

end Store

/-- The frame of a write is read back exactly if its value fits below one object. -/
theorem OutputLine.decode_storeSet {key : String} {value : Value} (plain : value.Plain) :
    OutputLine.decode (WorkerFrame.storeSet key value).encode =
      if value.depth + 1 ≤ maximumDepth then .ok (.frame (.storeSet key value))
      else .error (.protocol .workerFrame) := by
  rw [OutputLine.decode_encode,
    OutputLine.decode_line (.storeSet key value) plain, WorkerFrame.depth_storeSet]

/-- A request is read back exactly if its parameters fit below one object and the values of its
store below two. -/
theorem ControlFrame.decode_start {request : Request} (plain : request.Plain) :
    ControlFrame.decode (ControlFrame.start request).encode =
      if request.parameters.depth + 1 ≤ maximumDepth ∧ request.store.Shallow then
        .ok (.start request)
      else .error (.protocol .controlFrame) := by
  have fits : (ControlFrame.start request).depth ≤ maximumDepth ↔
      request.parameters.depth + 1 ≤ maximumDepth ∧ request.store.Shallow := by
    rw [ControlFrame.depth_start, ← Store.depthMembers_entries_le_iff (maximumDepth - 2) rfl]
    have limit : maximumDepth = 127 := rfl
    omega
  rw [ControlFrame.decode_encode, ControlFrame.decode_line (.start request) plain]
  simp only [fits]

/-- A checkpoint is read back exactly if the values of its store fit below two objects. -/
theorem Checkpoint.decodeBytes_encode {writtenAt : Timestamp} (valid : writtenAt.Valid)
    {snapshot : Snapshot} (plain : snapshot.store.Plain) :
    Checkpoint.decodeBytes (Text.encodeUtf8 (Checkpoint.encode writtenAt snapshot)) =
      if snapshot.store.Shallow then .ok snapshot else .error (.checkpointCorrupt .snapshot) := by
  have fits : snapshot.toValue.depth ≤ maximumDepth ↔ snapshot.store.Shallow := by
    rw [Snapshot.depth_le_iff snapshot (by decide),
      Store.depthMembers_entries_le_iff (maximumDepth - 2) rfl]
  rw [Checkpoint.decodeBytes_encodeUtf8, Checkpoint.decode_encode valid plain]
  simp only [fits]

/-- A value may nest one level deeper in the frame that writes it than in a request or in a
checkpoint.  So a value at the limit of the frame is taken into the store, and from then on every
request and every checkpoint is refused. -/
theorem values_taken_deeper_than_kept (key : String) {value : Value} (plain : value.Plain) :
    (OutputLine.decode (WorkerFrame.storeSet key value).encode =
        .ok (.frame (.storeSet key value)) ↔
      value.depth + 1 ≤ maximumDepth) ∧
    (∀ request : Request, request.Plain → request.store.find? key = some value →
      (ControlFrame.decode (ControlFrame.start request).encode = .ok (.start request) ↔
        request.parameters.depth + 1 ≤ maximumDepth ∧ request.store.Shallow) ∧
      (maximumDepth < value.depth + 2 →
        ControlFrame.decode (ControlFrame.start request).encode =
          .error (.protocol .controlFrame))) ∧
    ∀ (snapshot : Snapshot) (writtenAt : Timestamp), snapshot.store.Plain → writtenAt.Valid →
      snapshot.store.find? key = some value →
      (Checkpoint.decodeBytes (Text.encodeUtf8 (Checkpoint.encode writtenAt snapshot)) =
          .ok snapshot ↔ snapshot.store.Shallow) ∧
      (maximumDepth < value.depth + 2 →
        Checkpoint.decodeBytes (Text.encodeUtf8 (Checkpoint.encode writtenAt snapshot)) =
          .error (.checkpointCorrupt .snapshot)) := by
  refine ⟨?_, ?_, ?_⟩
  · rw [OutputLine.decode_storeSet plain]
    split <;> simp_all
  · intro request requestPlain known
    rw [ControlFrame.decode_start requestPlain]
    refine ⟨by split <;> simp_all, fun deep => if_neg fun fits => ?_⟩
    have := fits.2.depth_of_find? known
    omega
  · intro snapshot writtenAt storePlain valid known
    rw [Checkpoint.decodeBytes_encode valid storePlain]
    refine ⟨by split <;> simp_all, fun deep => if_neg fun fits => ?_⟩
    have := fits.depth_of_find? known
    omega

/-- An array in an array, and so on, so many levels deep. -/
def Json.Value.nest : Nat → Value
  | 0 => .null
  | levels + 1 => .arr [nest levels]

theorem Json.Value.plain_nest (levels : Nat) : (nest levels).Plain := by
  induction levels with
  | zero => exact ⟨trivial, trivial, trivial⟩
  | succ levels inductionHypothesis =>
      obtain ⟨held, sorted, unmarked⟩ := inductionHypothesis
      exact ⟨⟨held, trivial⟩, ⟨sorted, trivial⟩, ⟨unmarked, trivial⟩⟩

theorem Json.Value.depth_nest (levels : Nat) : (nest levels).depth = levels := by
  induction levels with
  | zero => rfl
  | succ levels inductionHypothesis =>
      rw [nest, depth, depthItems, depthItems, inductionHypothesis, Nat.max_zero]

/-- The store that holds nothing but one value. -/
def Store.single (key : String) (value : Value) : Store := KeyMap.empty.insert key value

theorem Store.plain_single (key : String) {value : Value} (plain : value.Plain) :
    (Store.single key value).Plain := by
  intro entry listed
  rw [List.mem_singleton.1 listed]
  exact plain

/-- The deepest value that the frame of a write can hold: the attempt after it cannot start, and the
checkpoint with it cannot be read. -/
theorem deepest_taken_value_is_not_kept :
    OutputLine.decode (WorkerFrame.storeSet "k" (.nest 126)).encode =
        .ok (.frame (.storeSet "k" (.nest 126))) ∧
      ControlFrame.decode (ControlFrame.start
        ⟨"next", "Sleep", .null, [], 1, false, Store.single "k" (.nest 126)⟩).encode =
          .error (.protocol .controlFrame) ∧
      Checkpoint.decodeBytes (Text.encodeUtf8 (Checkpoint.encode ⟨⟨2026, 4, 3⟩, 0, 0, 0, 0⟩
        ⟨.empty, Store.single "k" (.nest 126)⟩)) = .error (.checkpointCorrupt .snapshot) := by
  have plain := Value.plain_nest 126
  have deep : maximumDepth < (Value.nest 126).depth + 2 := by
    rw [Value.depth_nest]
    decide
  have known : (Store.single "k" (.nest 126)).find? "k" = some (.nest 126) := rfl
  have storePlain := Store.plain_single "k" plain
  obtain ⟨taken, requests, snapshots⟩ := values_taken_deeper_than_kept "k" plain
  have request := requests ⟨"next", "Sleep", .null, [], 1, false, Store.single "k" (.nest 126)⟩
    ⟨Value.plain_nest 0, storePlain, by decide⟩ known
  have snapshot := snapshots ⟨.empty, Store.single "k" (.nest 126)⟩ ⟨⟨2026, 4, 3⟩, 0, 0, 0, 0⟩
    storePlain ⟨⟨by decide, by decide, by decide⟩, by decide, by decide, by decide⟩ known
  exact ⟨taken.2 (by rw [Value.depth_nest]; decide), request.2 deep, snapshot.2 deep⟩

end JobGraph
