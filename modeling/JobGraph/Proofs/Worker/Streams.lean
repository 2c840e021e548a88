import JobGraph.Proofs.Json.OneLine
import JobGraph.Proofs.Text.Lines
import JobGraph.Proofs.Worker.Frames
import JobGraph.Proofs.Worker.Readings
import Mathlib.Data.List.TakeWhile

/-!
# Frames among plain output

The output of a worker is one stream of bytes, in which frames stand between plain output.  A frame
is recognized by its mark at the start of a line, and reading ends with the first line that is not
text.  So the frames are read that start a line, up to the first output that is not text
(`frames_read_at_line_starts`): text in whole lines hides no frame, output that leaves its last line
open takes the next frame into that line, and output that is not text takes all frames after it.
-/

namespace JobGraph

open Json (Value maximumDepth)

/-! ## Lines with the mark -/

namespace OutputLine

/-- Only a line that starts with the mark can be anything but text. -/
theorem decode_of_unmarked {line : String} (unmarked : ¬frameMark.toList <+: line.toList) :
    decode line = .ok (.text (content line)) := by
  have front := Text.dropEndWhile_isPrefix (fun c => c = '\r' || c = '\n') line.toList
  unfold decode
  split
  next => rfl
  next body found =>
    rw [content, String.toList_ofList] at found
    rw [afterMark?_eq_some found] at front
    exact absurd ((List.prefix_append ..).trans front) unmarked

/-- Bytes in which the mark does not stand hold no frame. -/
theorem frame?_lines_of_unmarked {bytes : List UInt8}
    (unmarked : ¬Text.encodeUtf8 frameMark <:+: bytes) :
    (Text.lines bytes).filterMap frame? = [] := by
  refine List.filterMap_eq_nil_iff.2 fun line listed => frame?_of_text (decode_of_unmarked ?_)
  exact fun front => unmarked
    ((Text.isPrefix_encodeUtf8 front).isInfix.trans (Text.infix_of_mem_lines listed))

/-- No frame is read behind bytes that are not text if the mark does not stand in them. -/
theorem frame?_lines_of_broken {bytes : List UInt8} (broken : ¬Text.IsText bytes)
    (unmarked : ¬Text.encodeUtf8 frameMark <:+: bytes) {byte : UInt8} (basic : byte < 128)
    (rest : List UInt8) : (Text.lines (bytes ++ byte :: rest)).filterMap frame? = [] := by
  refine List.filterMap_eq_nil_iff.2 fun line listed => frame?_of_text (decode_of_unmarked ?_)
  exact fun front => unmarked ((Text.isPrefix_encodeUtf8 front).isInfix.trans
    (Text.infix_of_mem_lines_broken broken basic listed))

end OutputLine

/-- What starts with a character that it holds only once does not begin before its own start. -/
theorem not_prefix_append_cons {first : Char} {mark begun : List Char} (once : first ∉ mark)
    (some_ : begun ≠ []) (unmarked : ¬first :: mark <+: begun) (rest : List Char) :
    ¬first :: mark <+: begun ++ (first :: mark ++ rest) := by
  intro front
  rcases Nat.le_total (first :: mark).length begun.length with short | long
  · exact unmarked (List.prefix_of_prefix_length_le front (List.prefix_append ..) short)
  obtain ⟨left, same⟩ := List.prefix_of_prefix_length_le (List.prefix_append begun _) front long
  have again : left <+: first :: mark ++ rest := by
    refine (List.prefix_append_right_inj begun).1 ?_
    rw [same]
    exact front
  -- A mark that goes on behind `begun` holds the character with which the other mark starts there.
  cases left with
  | nil => exact unmarked ⟨[], by rw [List.append_nil, ← same, List.append_nil]⟩
  | cons next left =>
    obtain ⟨c, begun, rfl⟩ := List.exists_cons_of_ne_nil some_
    obtain ⟨rfl, -⟩ := List.cons_prefix_cons.1 again
    obtain ⟨-, others⟩ := List.cons.inj same
    exact once (others ▸ List.mem_append_right _ List.mem_cons_self)

theorem frameMark_toList : frameMark.toList = '\x1e' :: "dagrun:".toList := rfl

namespace WorkerFrame

/-- A frame begins with a byte of the basic class. -/
theorem exists_encodeUtf8_encode (frame : WorkerFrame) :
    ∃ rest, Text.encodeUtf8 frame.encode = 30 :: rest := by
  rw [encode_eq, line, frameMark_toList, Text.encodeUtf8_append, Text.encodeUtf8_ofList,
    List.cons_append, List.flatMap_cons]
  exact ⟨_, rfl⟩

theorem newline_not_mem_line {frame : WorkerFrame} (plain : frame.Plain) :
    '\n' ∉ frame.line.toList := by
  rw [line, String.toList_ofList, List.mem_append]
  rintro (inMark | inBody)
  · exact absurd inMark (by decide)
  · rcases Value.visible_of_mem_write (.obj frame.members) [] (held_members plain) _ inBody with
      visible | nothing
    · exact absurd visible (by decide)
    · cases nothing

theorem getLast?_line (frame : WorkerFrame) : frame.line.toList.getLast? = some '}' := by
  rw [line, String.toList_ofList, Value.write_obj_eq, List.append_nil, ← List.append_assoc,
    List.getLast?_concat]

/-- A frame ends the line that it stands in. -/
theorem lines_encode_append {frame : WorkerFrame} (plain : frame.Plain) (begun : String)
    (whole : '\n' ∉ begun.toList) (rest : List UInt8) :
    Text.lines (Text.encodeUtf8 begun ++ (Text.encodeUtf8 frame.encode ++ rest)) =
      (begun ++ frame.line) :: Text.lines rest := by
  have unbroken : '\n' ∉ (begun ++ frame.line).toList := by
    rw [String.toList_append, List.mem_append]
    exact fun either => either.elim whole (newline_not_mem_line plain)
  have kept : (begun ++ frame.line).toList.getLast? ≠ some '\r' := by
    rw [String.toList_append, List.getLast?_append, getLast?_line, Option.some_or]
    decide
  rw [← Text.lines_encodeUtf8_append unbroken kept rest, encode_eq, ← List.append_assoc,
    ← Text.encodeUtf8_append, String.append_assoc]

/-- A frame is read in the line that it starts, if it does not nest too deep. -/
theorem frame?_line {frame : WorkerFrame} (plain : frame.Plain) :
    OutputLine.frame? frame.line = if frame.depth ≤ maximumDepth then some frame else none := by
  rw [OutputLine.frame?, OutputLine.decode_line frame plain]
  by_cases shallow : frame.depth ≤ maximumDepth
  · rw [if_pos shallow, if_pos shallow]
    rfl
  · rw [if_neg shallow, if_neg shallow]
    rfl

/-- A frame is text in a line that has begun before it. -/
theorem frame?_begun (frame : WorkerFrame) {begun : String} (some_ : begun ≠ "")
    (unmarked : ¬frameMark.toList <+: begun.toList) :
    OutputLine.frame? (begun ++ frame.line) = none := by
  refine OutputLine.frame?_of_text (OutputLine.decode_of_unmarked ?_)
  rw [String.toList_append, line, String.toList_ofList, frameMark_toList] at *
  exact not_prefix_append_cons (by decide) (fun none => some_ (String.toList_injective none))
    unmarked _

end WorkerFrame

/-! ## Streams -/

/-- A frame with the plain output since the frame before it. -/
structure Sending where
  plain : List UInt8
  frame : WorkerFrame

namespace Sending

def bytes (sending : Sending) : List UInt8 :=
  sending.plain ++ Text.encodeUtf8 sending.frame.encode

/-- The stream of a worker: its frames, each after some plain output, and plain output at the
end. -/
def stream (sendings : List Sending) (last : List UInt8) : List UInt8 :=
  sendings.flatMap bytes ++ last

/-- Whether the output before the frame is text. -/
def isText (sending : Sending) : Bool := (Text.decodeUtf8? sending.plain).isSome

/-- Whether the frame starts a line and nests no deeper than the reader allows. -/
def isRead (sending : Sending) : Bool :=
  Text.wholeLines sending.plain && sending.frame.depth ≤ maximumDepth

/-- The frames that are read: those that start a line and do not nest too deep, up to the first one
behind output that is not text. -/
def delivered (sendings : List Sending) : List WorkerFrame :=
  ((sendings.takeWhile isText).filter isRead).map frame

/-- The output before the frame holds no mark of frames, and the values in the frame can be read
back. -/
structure Sound (sending : Sending) : Prop where
  unmarked : ¬Text.encodeUtf8 frameMark <:+: sending.plain
  frame : sending.frame.Plain

variable {sending : Sending}

/-- Output that is not text ends the reading before the frame. -/
theorem frame?_lines_append_of_broken (sound : sending.Sound) (broken : ¬sending.isText)
    (rest : List UInt8) :
    (Text.lines (sending.bytes ++ rest)).filterMap OutputLine.frame? = [] := by
  obtain ⟨others, starts⟩ := sending.frame.exists_encodeUtf8_encode
  rw [bytes, starts, List.append_assoc, List.cons_append]
  exact OutputLine.frame?_lines_of_broken broken sound.unmarked (by decide) _

/-- Of a frame and the text before it, nothing but the frame is read as a frame. -/
theorem frame?_lines_append (sound : sending.Sound) (text : sending.isText) (rest : List UInt8) :
    (Text.lines (sending.bytes ++ rest)).filterMap OutputLine.frame? =
      (if sending.isRead then [sending.frame] else []) ++
        (Text.lines rest).filterMap OutputLine.frame? := by
  obtain ⟨front, last, parts, whole, frontText, lastText, unbroken⟩ :=
    Text.exists_lastLine text
  obtain ⟨begun, read⟩ := Option.isSome_iff_exists.1 lastText
  obtain rfl := Text.decodeUtf8?_eq_some_iff.1 read
  have frontUnmarked : ¬Text.encodeUtf8 frameMark <:+: front := fun found =>
    sound.unmarked (parts ▸ found.trans (List.prefix_append ..).isInfix)
  have begunUnmarked : ¬frameMark.toList <+: begun.toList := fun found =>
    sound.unmarked (parts ▸ (Text.isPrefix_encodeUtf8 found).isInfix.trans
      (List.suffix_append ..).isInfix)
  -- The output is whole lines and the beginning of one more, and the frame ends that line.
  have lines : Text.lines (sending.bytes ++ rest) =
      Text.lines front ++ (begun ++ sending.frame.line) :: Text.lines rest := by
    rw [bytes, ← parts, List.append_assoc, List.append_assoc, Text.lines_append frontText whole,
      WorkerFrame.lines_encode_append sound.frame begun (mt Text.newline_mem_encodeUtf8.2 unbroken)]
  rw [lines, List.filterMap_append, OutputLine.frame?_lines_of_unmarked frontUnmarked,
    List.nil_append, List.filterMap_cons]
  by_cases nothing : begun = ""
  · have starts : Text.wholeLines sending.plain = true := by
      rw [← parts, nothing, Text.encodeUtf8_empty, List.append_nil]
      exact whole
    rw [nothing, String.empty_append, WorkerFrame.frame?_line sound.frame, isRead, starts,
      Bool.true_and]
    by_cases shallow : sending.frame.depth ≤ maximumDepth <;> simp [shallow]
  · have open_ : Text.wholeLines sending.plain = false := by
      rw [← parts]
      exact Text.wholeLines_append (mt Text.encodeUtf8_eq_nil.1 nothing) unbroken front
    rw [WorkerFrame.frame?_begun sending.frame nothing begunUnmarked, isRead, open_]
    rfl

/-- A stream is read up to the first output that is not text. -/
theorem frame?_lines_stream {sendings : List Sending} (sound : ∀ sending ∈ sendings, sending.Sound)
    {last : List UInt8} (unmarked : ¬Text.encodeUtf8 frameMark <:+: last) :
    (Text.lines (stream sendings last)).filterMap OutputLine.frame? = delivered sendings := by
  induction sendings with
  | nil => exact OutputLine.frame?_lines_of_unmarked unmarked
  | cons sending others inductionHypothesis =>
    have first := sound sending List.mem_cons_self
    have rest := inductionHypothesis fun other listed => sound other (List.mem_cons_of_mem _ listed)
    have parts : stream (sending :: others) last = sending.bytes ++ stream others last := by
      simp [stream]
    rw [parts, delivered]
    by_cases text : sending.isText = true
    · rw [frame?_lines_append first text, rest, delivered, List.takeWhile_cons_of_pos text,
        List.filter_cons]
      by_cases read : sending.isRead = true <;> simp [read]
    · rw [frame?_lines_append_of_broken first text, List.takeWhile_cons_of_neg text]
      rfl

/-- All frames are read exactly if each starts a line, does not nest too deep and stands behind
text. -/
theorem delivered_eq_map_frame_iff {sendings : List Sending} :
    delivered sendings = sendings.map frame ↔
      ∀ sending ∈ sendings, sending.isText ∧ sending.isRead := by
  have taken := sendings.takeWhile_sublist isText
  have kept := (sendings.takeWhile isText).filter_sublist (p := isRead)
  constructor
  · intro all sending listed
    have lengths := congrArg List.length all
    rw [delivered, List.length_map, List.length_map] at lengths
    have same := (kept.trans taken).eq_of_length lengths
    rw [← same, List.mem_filter] at listed
    exact ⟨List.mem_takeWhile_imp listed.1, listed.2⟩
  · intro each
    rw [delivered, List.takeWhile_eq_self_iff.2 fun sending listed => (each sending listed).1,
      List.filter_eq_self.2 fun sending listed => (each sending listed).2]

end Sending

/-- The frames that are read from a stream are those that start a line and do not nest too deep, in
their order, up to the first output that is not text, and the writes and the result of the attempt
are what these frames say.  So text in whole lines hides no frame, a frame after output in an open
line is lost, and so are all frames after output that is not text. -/
theorem frames_read_at_line_starts {sendings : List Sending}
    (sound : ∀ sending ∈ sendings, sending.Sound) {last : List UInt8}
    (unmarked : ¬Text.encodeUtf8 frameMark <:+: last) :
    (Text.lines (Sending.stream sendings last)).filterMap OutputLine.frame? =
        Sending.delivered sendings ∧
      ((Text.lines (Sending.stream sendings last)).filterMap OutputLine.frame? =
          sendings.map Sending.frame ↔ ∀ sending ∈ sendings, sending.isText ∧ sending.isRead) ∧
      ∀ reason reading,
        Reading.ofLines reason (Text.lines (Sending.stream sendings last)) = reading →
        reading.writes = (Sending.delivered sendings).filterMap WorkerFrame.write? ∧
          reading.result =
            ((Sending.delivered sendings).filterMap WorkerFrame.result?).getLast? := by
  have frames := Sending.frame?_lines_stream sound unmarked
  refine ⟨frames, frames ▸ Sending.delivered_eq_map_frame_iff, ?_⟩
  rintro reason reading rfl
  rw [Reading.ofLines_eq, frames]
  exact ⟨rfl, rfl⟩

/-- A result that follows a word without the end of its line. -/
def Sending.openLine : Sending := ⟨Text.encodeUtf8 "x", .finished false false⟩

theorem Sending.sound_openLine : openLine.Sound where
  unmarked := by
    rw [openLine, Text.encodeUtf8_eq, Text.encodeUtf8_eq]
    decide
  frame := trivial

/-- A result that follows a line with a byte that no text holds. -/
def Sending.brokenLine : Sending := ⟨[255, 10], .finished false false⟩

theorem Sending.sound_brokenLine : brokenLine.Sound where
  unmarked := by
    rw [brokenLine, Text.encodeUtf8_eq]
    decide
  frame := trivial

/-- A write after a whole line, a result in an open line, a result, and one after a line that is
not text. -/
def Sending.mixed : List Sending :=
  [⟨Text.encodeUtf8 "hello\n", .storeSet "k" .null⟩, openLine, ⟨[], .finished true false⟩,
    brokenLine]

theorem mixed_output_hides_two_frames :
    (Text.lines (Sending.stream Sending.mixed (Text.encodeUtf8 "bye"))).filterMap
        OutputLine.frame? = [.storeSet "k" .null, .finished true false] ∧
      ∃ reading, Reading.ofLines Telling.plain.reason
          (Text.lines (Sending.stream Sending.mixed (Text.encodeUtf8 "bye"))) = reading ∧
        reading.writes = [.set "k" .null] ∧ reading.result = some (true, false) := by
  have unmarked : ∀ text ∈ ["hello\n", "", "bye"],
      ¬Text.encodeUtf8 frameMark <:+: Text.encodeUtf8 text := by
    simp only [Text.encodeUtf8_eq]
    decide
  have sound : ∀ sending ∈ Sending.mixed, sending.Sound := by
    simp only [Sending.mixed, List.forall_mem_cons, List.not_mem_nil, false_implies, implies_true,
      and_true]
    refine ⟨⟨unmarked _ (by simp), ?_⟩, Sending.sound_openLine, ⟨?_, trivial⟩,
      Sending.sound_brokenLine⟩
    · exact ⟨trivial, trivial, trivial⟩
    · exact Text.encodeUtf8_empty ▸ unmarked "" (by simp)
  have read : Sending.delivered Sending.mixed = [.storeSet "k" .null, .finished true false] := by
    simp only [Sending.mixed, Sending.openLine, Text.encodeUtf8_eq]
    rfl
  obtain ⟨frames, -, readings⟩ := frames_read_at_line_starts sound (unmarked "bye" (by simp))
  obtain ⟨writes, result⟩ := readings Telling.plain.reason _ rfl
  rw [read] at frames writes result
  exact ⟨frames, _, rfl, writes, result⟩

/-- A stream whose frames are all lost reports a failure, whatever they say. -/
theorem Sending.report_of_delivered_eq_nil {sendings : List Sending}
    (sound : ∀ sending ∈ sendings, sending.Sound) (lost : delivered sendings = [])
    (reason : String → String) (status : ExitStatus) (cancelled : Bool) :
    (Reading.ofLines reason (Text.lines (stream sendings []))).report status cancelled =
      ⟨true, cancelled, []⟩ := by
  have unmarked : ¬Text.encodeUtf8 frameMark <:+: [] := by
    rw [Text.encodeUtf8_eq]
    decide
  rw [Reading.ofLines_eq, frame?_lines_stream sound unmarked, lost]
  simp [Reading.report]

/-- A result in a line that has begun with plain output is not read, and the attempt fails. -/
theorem open_line_hides_result :
    Sending.openLine.Sound ∧ Sending.openLine.isText ∧
      (Reading.ofLines Telling.plain.reason
        (Text.lines (Sending.stream [Sending.openLine] []))).report (.code 0) false =
          ⟨true, false, []⟩ := by
  have lost : Sending.delivered [Sending.openLine] = [] := by
    rw [Sending.openLine, Text.encodeUtf8_eq]
    rfl
  exact ⟨Sending.sound_openLine, Text.isText_encodeUtf8 "x",
    Sending.report_of_delivered_eq_nil (by simpa using Sending.sound_openLine) lost _ (.code 0)
      false⟩

/-- A result that starts a line is not read after a line that is not text, and the attempt fails. -/
theorem broken_line_hides_result :
    Sending.brokenLine.Sound ∧ Sending.brokenLine.isRead ∧
      (Reading.ofLines Telling.plain.reason
        (Text.lines (Sending.stream [Sending.brokenLine] []))).report (.code 0) false =
          ⟨true, false, []⟩ := by
  have lost : Sending.delivered [Sending.brokenLine] = [] := rfl
  exact ⟨Sending.sound_brokenLine, by decide,
    Sending.report_of_delivered_eq_nil (by simpa using Sending.sound_brokenLine) lost _ (.code 0)
      false⟩

end JobGraph
