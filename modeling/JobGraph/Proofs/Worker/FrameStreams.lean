import JobGraph.Proofs.Worker.StoredValues
import JobGraph.Proofs.Worker.Streams

/-!
# Streams of frames

Frames that are sent one after the other are cut at the ends of lines into one line each, because
the text of a frame stands on one line, and the lines are read as the frames that were sent
(`streams_of_frames_read_back`).  This holds in both directions: to a worker and from it.
-/

namespace JobGraph

open Json (Value maximumDepth)

/-! ## Lines with their ends -/

namespace Text

/-- A stream that is made of some lines, each with its end: cut at the ends of lines, and read by
lines. -/
structure Lined (stream : String) (lines : List String) : Prop where
  cut : stream.toList.splitOn '\n' = lines.map String.toList ++ [[]]
  read : Text.lines (encodeUtf8 stream) = lines

/-- A line that can be read as it was written. -/
structure IsLine (line : String) : Prop where
  whole : '\n' ∉ line.toList
  kept : line.toList.getLast? ≠ some '\r'

theorem IsLine.lined_cons {line : String} (isLine : IsLine line) {stream : String}
    {lines : List String} (lined : Lined stream lines) :
    Lined (line ++ "\n" ++ stream) (line :: lines) where
  cut := by
    have characters : (line ++ "\n" ++ stream).toList = line.toList ++ '\n' :: stream.toList := by
      simp
    rw [characters, List.splitOn_append_cons_self_of_not_mem isLine.whole, lined.cut]
    rfl
  read := by
    rw [encodeUtf8_append, lines_encodeUtf8_append isLine.whole isLine.kept, lined.read]

theorem lined_join {lines : List String} (areLines : ∀ line ∈ lines, IsLine line) :
    Lined (String.join (lines.map fun line => line ++ "\n")) lines := by
  induction lines with
  | nil => exact ⟨rfl, by rw [List.map_nil, String.join_nil, encodeUtf8_empty]; rfl⟩
  | cons line rest inductionHypothesis =>
    obtain ⟨first, others⟩ := List.forall_mem_cons.1 areLines
    rw [List.map_cons, String.join_cons]
    exact first.lined_cons (inductionHypothesis others)

end Text

/-! ## Lines with frames -/

theorem WorkerFrame.isLine {frame : WorkerFrame} (plain : frame.Plain) :
    Text.IsLine frame.line where
  whole := newline_not_mem_line plain
  kept := by
    rw [getLast?_line]
    decide

theorem WorkerFrame.lined_join {frames : List WorkerFrame} (plain : ∀ frame ∈ frames, frame.Plain) :
    Text.Lined (String.join (frames.map encode)) (frames.map line) := by
  have lined := Text.lined_join (List.forall_mem_map.2 fun frame sent => isLine (plain frame sent))
  rwa [List.map_map, Function.comp_def, ← funext encode_eq] at lined

theorem WorkerFrame.decode_lines {frames : List WorkerFrame}
    (sound : ∀ frame ∈ frames, frame.Plain ∧ frame.depth ≤ maximumDepth) :
    (frames.map line).map OutputLine.decode = frames.map fun frame => .ok (.frame frame) := by
  rw [List.map_map]
  refine List.map_congr_left fun frame sent => ?_
  obtain ⟨plain, shallow⟩ := sound frame sent
  rw [Function.comp_apply, OutputLine.decode_line frame plain, if_pos shallow]

namespace ControlFrame

theorem isLine {frame : ControlFrame} (plain : frame.Plain) : Text.IsLine frame.line where
  whole := by
    rw [line, String.toList_ofList]
    intro broken
    rcases Value.visible_of_mem_write (.obj frame.members) [] (held_members plain) _ broken with
      visible | nothing
    · exact absurd visible (by decide)
    · cases nothing
  kept := by
    rw [line, String.toList_ofList, Value.write_obj_eq, List.append_nil, List.getLast?_concat]
    decide

theorem lined_join {frames : List ControlFrame} (plain : ∀ frame ∈ frames, frame.Plain) :
    Text.Lined (String.join (frames.map encode)) (frames.map line) := by
  have lined := Text.lined_join (List.forall_mem_map.2 fun frame sent => isLine (plain frame sent))
  rwa [List.map_map, Function.comp_def, ← funext encode_eq] at lined

theorem decode_lines {frames : List ControlFrame}
    (sound : ∀ frame ∈ frames, frame.Plain ∧ frame.depth ≤ maximumDepth) :
    (frames.map line).map decode = frames.map .ok := by
  rw [List.map_map]
  refine List.map_congr_left fun frame sent => ?_
  obtain ⟨plain, shallow⟩ := sound frame sent
  exact (decode_line frame plain).trans (if_pos shallow)

end ControlFrame

/-! ## Both directions -/

/-- The frames of a worker, one after the other, are cut at the ends of lines into one line for each
frame, which starts with the mark, and the lines are read as these frames.  The same holds of the
frames to a worker, whose lines have no mark. -/
theorem streams_of_frames_read_back {sent : List WorkerFrame}
    (sound : ∀ frame ∈ sent, frame.Plain ∧ frame.depth ≤ maximumDepth) {calls : List ControlFrame}
    (callsSound : ∀ frame ∈ calls, frame.Plain ∧ frame.depth ≤ maximumDepth) :
    (∃ lines, Text.Lined (String.join (sent.map WorkerFrame.encode)) lines ∧
      lines.length = sent.length ∧ (∀ line ∈ lines, frameMark.toList <+: line.toList) ∧
      lines.map OutputLine.decode = sent.map fun frame => .ok (.frame frame)) ∧
    ∃ lines, Text.Lined (String.join (calls.map ControlFrame.encode)) lines ∧
      lines.length = calls.length ∧ lines.map ControlFrame.decode = calls.map .ok := by
  constructor
  · refine ⟨sent.map WorkerFrame.line, WorkerFrame.lined_join fun frame listed =>
      (sound frame listed).1, List.length_map .., ?_, WorkerFrame.decode_lines sound⟩
    refine List.forall_mem_map.2 fun frame _ => ?_
    rw [WorkerFrame.line, String.toList_ofList]
    exact List.prefix_append ..
  · exact ⟨calls.map ControlFrame.line, ControlFrame.lined_join fun frame listed =>
      (callsSound frame listed).1, List.length_map .., ControlFrame.decode_lines callsSound⟩

/-- Frames of a worker whose texts hold ends of lines and the mark of frames. -/
def WorkerFrame.awkward : List WorkerFrame :=
  [.log .error "two\nlines\r", .storeSet frameMark .awkward, .storeRemove "\n",
    .finished true false]

/-- A request for an attempt, and the call to abort it. -/
def ControlFrame.awkward : List ControlFrame :=
  [.start ⟨"a\nb", "", .awkward, ["\n"], 4294967295, true, Store.single "\r" .awkward⟩, .abort]

theorem awkward_frames_read_back :
    (∃ lines, Text.Lined (String.join (WorkerFrame.awkward.map WorkerFrame.encode)) lines ∧
      lines.length = 4 ∧ (∀ line ∈ lines, frameMark.toList <+: line.toList) ∧
      lines.map OutputLine.decode = WorkerFrame.awkward.map fun frame => .ok (.frame frame)) ∧
    ∃ lines, Text.Lined (String.join (ControlFrame.awkward.map ControlFrame.encode)) lines ∧
      lines.length = 2 ∧ lines.map ControlFrame.decode = ControlFrame.awkward.map .ok := by
  have plain := Value.plain_awkward
  refine streams_of_frames_read_back ?_ ?_
  · simp only [WorkerFrame.awkward, List.forall_mem_cons, List.not_mem_nil, false_implies,
      implies_true, and_true]
    exact ⟨⟨trivial, by decide⟩, ⟨plain, by decide⟩, ⟨trivial, by decide⟩, trivial, by decide⟩
  · simp only [ControlFrame.awkward, List.forall_mem_cons, List.not_mem_nil, false_implies,
      implies_true, and_true]
    exact ⟨⟨⟨plain, Store.plain_single "\r" plain, by decide⟩, by decide⟩, trivial, by decide⟩

end JobGraph
