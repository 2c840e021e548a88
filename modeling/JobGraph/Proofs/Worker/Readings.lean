import JobGraph.Worker.Reading
import Mathlib.Data.List.Induction

/-!
# What is taken from each line

Each line of a worker's output gives one thing: a line of the log, a write to the store, or a
result.  A reading holds what the lines gave, in their order, and of the results the last one
(`Reading.ofLines_eq`).  The lines of the error stream come in between, in any way that keeps the
order of both (`woven_iff`).
-/

namespace JobGraph

namespace WorkerFrame

/-- The line of the log that a frame carries. -/
def logLine? : WorkerFrame → Option (Severity × String)
  | .log severity message => some (severity, message)
  | _ => none

/-- The result that a frame carries: whether the attempt failed, and whether it was aborted. -/
def result? : WorkerFrame → Option (Bool × Bool)
  | .finished failed aborted => some (failed, aborted)
  | _ => none

end WorkerFrame

namespace OutputLine

/-- The frame among what was read from a line. -/
def frameIn? : Except Error OutputLine → Option WorkerFrame
  | .ok (.frame read) => some read
  | _ => none

/-- The line of the log that comes of what was read from a line. -/
def log? : OutputLine → Option (Severity × String)
  | .text content => some (.info, content)
  | .frame read => read.logLine?

/-- The frame in a line of output, if there is one. -/
def frame? (line : String) : Option WorkerFrame := frameIn? (decode line)

/-- The line of the log that a line of output gives, if it gives one. -/
def logLine? (reason : String → String) (line : String) : Option (Severity × String) :=
  match decode line with
  | .ok read => read.log?
  | .error error => some (.error, error.message ++ reason (content line))

theorem frame?_of_text {line content : String} (decoded : decode line = .ok (.text content)) :
    frame? line = none := by
  rw [frame?, decoded]
  rfl

/-- Lines that are not refused give what is read from them. -/
theorem filterMap_logLine? {lines : List String} {read : List OutputLine}
    (decoded : lines.map decode = read.map .ok) (reason : String → String) :
    lines.filterMap (logLine? reason) = read.filterMap log? := by
  induction lines generalizing read with
  | nil =>
    rw [List.map_eq_nil_iff.1 decoded.symm]
    rfl
  | cons line others inductionHypothesis =>
    obtain ⟨first, rest, rfl, firstRead, restRead⟩ := List.map_eq_cons_iff.1 decoded.symm
    have given : logLine? reason line = first.log? := by rw [logLine?, ← firstRead]
    rw [List.filterMap_cons, List.filterMap_cons, given, inductionHypothesis restRead.symm]

theorem filterMap_frame? {lines : List String} {read : List OutputLine}
    (decoded : lines.map decode = read.map .ok) :
    lines.filterMap frame? = read.filterMap fun line => frameIn? (.ok line) := by
  have frames : lines.filterMap frame? = (lines.map decode).filterMap frameIn? :=
    List.filterMap_map.symm
  rw [frames, decoded, List.filterMap_map]
  rfl

end OutputLine

namespace Reading

open OutputLine (frame? logLine?)

variable (reason : String → String)

/-- One more line adds what it gives. -/
theorem take_eq (reading : Reading) (line : String) :
    reading.take reason line =
      ⟨reading.lines ++ (logLine? reason line).toList,
        reading.writes ++ ((frame? line).bind WorkerFrame.write?).toList,
        ((frame? line).bind WorkerFrame.result?).or reading.result⟩ := by
  unfold take logLine? frame?
  cases OutputLine.decode line with
  | error error => simp [log, OutputLine.frameIn?]
  | ok decoded =>
    cases decoded with
    | text text => simp [log, OutputLine.log?, OutputLine.frameIn?]
    | frame frame =>
      cases frame <;>
        simp [log, OutputLine.log?, OutputLine.frameIn?, WorkerFrame.logLine?, WorkerFrame.write?,
          WorkerFrame.result?]

private theorem filterMap_toList {α β : Type} (f : α → Option β) (option : Option α) :
    option.toList.filterMap f = (option.bind f).toList := by
  cases option with
  | none => rfl
  | some element => cases image : f element <;> simp [image]

private theorem filterMap_singleton {α β : Type} (f : α → Option β) (element : α) :
    [element].filterMap f = (f element).toList :=
  filterMap_toList f (some element)

private theorem getLast?_toList {α : Type} (option : Option α) :
    option.toList.getLast? = option := by
  cases option <;> rfl

/-- A reading holds what the lines gave. -/
theorem ofLines_eq (lines : List String) :
    ofLines reason lines =
      ⟨lines.filterMap (logLine? reason), (lines.filterMap frame?).filterMap WorkerFrame.write?,
        ((lines.filterMap frame?).filterMap WorkerFrame.result?).getLast?⟩ := by
  -- From the end of the list: the line that is read last decides on the result.
  induction lines using List.reverseRecOn with
  | nil => rfl
  | append_singleton front line inductionHypothesis =>
    have more : ofLines reason (front ++ [line]) = (ofLines reason front).take reason line := by
      rw [ofLines, List.foldl_append, List.foldl_cons, List.foldl_nil, ofLines]
    rw [more, inductionHypothesis, take_eq]
    simp only [List.filterMap_append, List.getLast?_append, filterMap_singleton, filterMap_toList,
      getLast?_toList]

end Reading

/-! ## Two streams -/

/-- The lines of two streams one after the other, each stream in its order. -/
inductive Woven {α : Type} : List α → List α → List α → Prop
  | nil : Woven [] [] []
  | output {line : α} {output errors shown : List α} :
      Woven output errors shown → Woven (line :: output) errors (line :: shown)
  | errors {line : α} {output errors shown : List α} :
      Woven output errors shown → Woven output (line :: errors) (line :: shown)

namespace Woven

variable {α : Type} {output errors shown : List α}

theorem append (output errors : List α) : Woven output errors (output ++ errors) := by
  induction output with
  | nil =>
    induction errors with
    | nil => exact .nil
    | cons line rest inductionHypothesis => exact .errors inductionHypothesis
  | cons line rest inductionHypothesis => exact .output inductionHypothesis

theorem weave (order : List Stream) (output errors : List α) :
    Woven output errors (Telling.weave order output errors) := by
  induction order, output, errors using Telling.weave.induct with
  | case1 order line output errors inductionHypothesis => exact .output inductionHypothesis
  | case2 order output line errors inductionHypothesis => exact .errors inductionHypothesis
  | case3 stream order output errors noOutput noErrors inductionHypothesis =>
    rw [Telling.weave.eq_3 _ _ _ _ noOutput noErrors]
    exact inductionHypothesis
  | case4 output errors => exact append output errors

/-- Each stream comes in its order, and nothing else comes. -/
theorem sublists (woven : Woven output errors shown) :
    output.Sublist shown ∧ errors.Sublist shown ∧
      shown.length = output.length + errors.length := by
  induction woven with
  | nil => exact ⟨.slnil, .slnil, rfl⟩
  | output _ inductionHypothesis =>
    obtain ⟨first, second, length⟩ := inductionHypothesis
    exact ⟨first.cons_cons _, second.cons _, by simp only [List.length_cons]; omega⟩
  | errors _ inductionHypothesis =>
    obtain ⟨first, second, length⟩ := inductionHypothesis
    exact ⟨first.cons _, second.cons_cons _, by simp only [List.length_cons]; omega⟩

/-- With nothing on the error stream, the lines of the output come as they are. -/
theorem eq_of_no_errors (woven : Woven output [] shown) : shown = output := by
  obtain ⟨first, -, length⟩ := woven.sublists
  exact (first.eq_of_length length.symm).symm

end Woven

theorem Reading.withErrors_nil (reading : Reading) (order : List Stream) :
    reading.withErrors order [] = reading := by
  rw [withErrors, List.map_nil, (Woven.weave order reading.lines []).eq_of_no_errors]

/-- The run may get the lines in every way that keeps the order of both streams, and in no other. -/
theorem woven_iff {α : Type} {output errors shown : List α} :
    Woven output errors shown ↔ ∃ order, Telling.weave order output errors = shown := by
  constructor
  · intro woven
    induction woven with
    | nil => exact ⟨[], rfl⟩
    | output _ inductionHypothesis =>
      obtain ⟨order, rfl⟩ := inductionHypothesis
      exact ⟨.output :: order, rfl⟩
    | errors _ inductionHypothesis =>
      obtain ⟨order, rfl⟩ := inductionHypothesis
      exact ⟨.errors :: order, by rw [Telling.weave]⟩
  · rintro ⟨order, rfl⟩
    exact .weave order output errors

end JobGraph
