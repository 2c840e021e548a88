import JobGraph.Proofs.StoreWrites
import JobGraph.Proofs.Worker.Deeds
import JobGraph.Proofs.Worker.FrameStreams

/-!
# The store that a task sees and the store of the run

A task reads and writes a store of its own, and each of its writes goes to the run in a frame.  Both
sides have under every key what the last write to it has left (`Store.after?`): the task in every
answer that it gets, and the run when it carries out the writes that it has read
(`task_and_run_agree_on_store`).
-/

namespace JobGraph

open Json (Value maximumDepth)

/-! ## What operations leave -/

namespace Operation

/-- The frame that an operation sends, if it sends one. -/
def frame? (operation : Operation) : Option WorkerFrame :=
  operation.line?.bind fun line =>
    match line with
    | .frame sent => some sent
    | .text _ => none

theorem bind_frame?_write (operation : Operation) :
    operation.frame?.bind WorkerFrame.write? = operation.write? := by
  cases operation <;> rfl

/-- The value that an operation writes to the store can be read back from its frame. -/
def Kept : Operation → Prop
  | .set _ value => value.Plain ∧ value.depth + 1 ≤ maximumDepth
  | _ => True

theorem Kept.frame? {operation : Operation} (kept : operation.Kept) :
    ∀ frame ∈ operation.frame?, frame.Plain ∧ frame.depth ≤ maximumDepth := by
  intro frame sent
  cases operation with
  | set key value =>
    obtain rfl := Option.some.inj sent
    exact ⟨kept.1, (WorkerFrame.depth_storeSet key value).trans_le kept.2⟩
  | log | remove | report =>
    obtain rfl := Option.some.inj sent
    exact ⟨trivial, show 1 ≤ maximumDepth by decide⟩
  | _ => cases sent

end Operation

namespace Context

theorem store_performAll (context : Context) (done : List Operation) :
    (context.performAll done).store = context.store.merge (done.filterMap Operation.write?) := by
  induction done generalizing context with
  | nil => rfl
  | cons operation rest inductionHypothesis =>
    rw [performAll_cons, inductionHypothesis]
    cases operation <;> rfl

theorem frames_perform (context : Context) (operation : Operation) :
    (context.perform operation).1.frames = context.frames ++ operation.frame?.toList := by
  rw [frames, sent_perform, List.filterMap_append]
  congr 1
  cases operation <;> rfl

theorem frames_performAll (context : Context) (done : List Operation) :
    (context.performAll done).frames = context.frames ++ done.filterMap Operation.frame? := by
  induction done generalizing context with
  | nil => rw [performAll_nil, List.filterMap_nil, List.append_nil]
  | cons operation rest inductionHypothesis =>
    rw [performAll_cons, inductionHypothesis, frames_perform, List.append_assoc]
    cases sent : operation.frame? <;> simp [sent]

end Context

/-- The writes that are read of some frames are those that the frames carry. -/
theorem Reading.writes_of_frames {frames : List WorkerFrame}
    (sound : ∀ frame ∈ frames, frame.Plain ∧ frame.depth ≤ maximumDepth)
    (reason : String → String) :
    (Reading.ofLines reason (Text.lines (Text.encodeUtf8
      (String.join (frames.map WorkerFrame.encode))))).writes =
        frames.filterMap WorkerFrame.write? := by
  have read := (WorkerFrame.lined_join fun frame sent => (sound frame sent).1).read
  have frames_ : (frames.map WorkerFrame.line).filterMap OutputLine.frame? = frames := by
    have decoded : (frames.map WorkerFrame.line).map OutputLine.decode =
        (frames.map OutputLine.frame).map .ok := by
      rw [WorkerFrame.decode_lines sound, List.map_map]
      rfl
    rw [OutputLine.filterMap_frame? decoded, List.filterMap_map]
    exact List.filterMap_some
  rw [read, Reading.ofLines_eq, frames_]

/-- Whatever a task has done in its attempt, its store answers for the values that it was given with
the writes so far carried out, and lists their keys in order.  The run that reads its frames finds
just these writes in them: carried out on the values that the task was given, they give the store of
the task, and on any other values they change what is under the keys of the writes and nothing else,
each to what the last write to it says. -/
theorem task_and_run_agree_on_store (request : Request) {done : List Operation} {now : Context}
    (reached : (Context.ofRequest request).performAll done = now) {writes : List StoreWrite}
    (wrote : done.filterMap Operation.write? = writes) :
    (∀ key,
      (now.perform (.get key)).2 = request.store.after? writes key ∧
        (now.perform (.remove key)).2 = request.store.after? writes key ∧
        (now.perform (.contains key)).2 = (request.store.after? writes key).isSome) ∧
    (∀ keys : List String, (now.perform .keys).2 = keys →
      keys.Pairwise (· < ·) ∧
        ∀ key, key ∈ keys ↔ (request.store.after? writes key).isSome) ∧
    ((∀ operation ∈ done, operation.Kept) →
      (∀ frame ∈ now.frames, OutputLine.decode frame.encode = .ok (.frame frame)) ∧
        now.frames.filterMap WorkerFrame.write? = writes ∧
        ∀ reason, (Reading.ofLines reason (Text.lines (Text.encodeUtf8
          (String.join (now.frames.map WorkerFrame.encode))))).writes = writes) ∧
    request.store.merge writes = now.store ∧
    ∀ (other : Store) (key : String),
      ((∀ write ∈ writes, write.key ≠ key) → (other.merge writes).find? key = other.find? key) ∧
      ∀ front write back, writes = front ++ write :: back → write.key = key →
        (∀ later ∈ back, later.key ≠ key) → (other.merge writes).find? key = write.value? := by
  have store : now.store = request.store.merge writes := by
    rw [← reached, ← wrote]
    exact Context.store_performAll _ done
  have frames : now.frames = done.filterMap Operation.frame? := by
    rw [← reached]
    exact Context.frames_performAll _ done
  have found : ∀ key, now.store.find? key = request.store.after? writes key := fun key => by
    rw [store, Store.find?_merge]
  refine ⟨fun key => ⟨found key, found key, ?_⟩, ?_, fun kept => ?_, store.symm,
    fun other key => ⟨fun unwritten => ?_, ?_⟩⟩
  · rw [← found key]
    rfl
  · rintro _ rfl
    exact ⟨now.store.keys_increasing, fun key => found key ▸ KeyMap.mem_keys⟩
  · have sound : ∀ frame ∈ now.frames, frame.Plain ∧ frame.depth ≤ maximumDepth := by
      rw [frames]
      intro frame sent
      obtain ⟨operation, listed, same⟩ := List.mem_filterMap.1 sent
      exact (kept operation listed).frame? frame same
    have carried : now.frames.filterMap WorkerFrame.write? = writes := by
      rw [frames, List.filterMap_filterMap, ← wrote]
      simp only [Operation.bind_frame?_write]
    refine ⟨fun frame sent => ?_, carried,
      fun reason => (Reading.writes_of_frames sound reason).trans carried⟩
    obtain ⟨plain, shallow⟩ := sound frame sent
    rw [OutputLine.decode_encode, OutputLine.decode_line frame plain, if_pos shallow]
  · rw [Store.find?_merge, Store.after?_of_unwritten unwritten]
  · rintro front write back parts rfl last
    rw [Store.find?_merge, parts, Store.after?_of_last last]

/-- A task that writes a key twice, removes one that is there and one that is not, and reads. -/
def Operation.busy : List Operation :=
  [.set "new" (.nest 126), .get "old", .remove "old", .contains "old", .remove "absent",
    .set "new" (.str "\n"), .keys, .log .info "done", .set "gone" .null, .remove "gone"]

theorem busy_task_and_run_agree :
    ∃ now : Context,
      (Context.ofRequest ⟨"t", "Busy", .null, [], 1, false, Store.single "old" .null⟩).performAll
        Operation.busy = now ∧
      (now.perform (.get "new")).2 = some (.str "\n") ∧
      (now.perform (.contains "old")).2 = false ∧
      (Reading.ofLines Telling.plain.reason (Text.lines (Text.encodeUtf8
        (String.join (now.frames.map WorkerFrame.encode))))).writes =
          [.set "new" (.nest 126), .remove "old", .remove "absent", .set "new" (.str "\n"),
            .set "gone" .null, .remove "gone"] ∧
      ∀ other : Store,
        (other.merge (Operation.busy.filterMap Operation.write?)).find? "else" =
            other.find? "else" ∧
          (other.merge (Operation.busy.filterMap Operation.write?)).find? "new" =
            some (.str "\n") := by
  obtain ⟨answers, -, read, -, others⟩ := task_and_run_agree_on_store
    ⟨"t", "Busy", .null, [], 1, false, Store.single "old" .null⟩
    (rfl : Context.performAll _ Operation.busy = _) rfl
  have kept : ∀ operation ∈ Operation.busy, operation.Kept := by
    have text : (Value.str "\n").Plain := ⟨trivial, trivial, trivial⟩
    simp only [Operation.busy, List.forall_mem_cons, List.not_mem_nil, false_implies, implies_true,
      and_true]
    refine ⟨⟨Value.plain_nest 126, ?_⟩, trivial, trivial, trivial, trivial, ⟨text, by decide⟩,
      trivial, trivial, ⟨Value.plain_nest 0, by decide⟩, trivial⟩
    rw [Value.depth_nest]
    decide
  refine ⟨_, rfl, (answers "new").1.trans rfl, (answers "old").2.2.trans rfl,
    (read kept).2.2 _, fun other => ⟨(others other "else").1 ?_, (others other "new").2
      [.set "new" (.nest 126), .remove "old", .remove "absent"] (.set "new" (.str "\n"))
      [.set "gone" .null, .remove "gone"] rfl rfl ?_⟩⟩
  all_goals decide

end JobGraph
