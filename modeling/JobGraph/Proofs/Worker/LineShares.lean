import JobGraph.Proofs.DependencyOrder
import JobGraph.Proofs.Worker.Reports
import JobGraph.Rehearsal.Basic
import Mathlib.Data.List.Forall2

/-!
# Every line of a worker is accounted for

A worker may be any program.  Each line that it puts out gives one share of what comes of the
attempt, and only one: a line of the log, a write, or a result (`Share`, `Gives`).  The report and
the log consist of the shares of the lines in their order (`every_line_is_accounted_for`), the lines
of the error stream come in between in theirs, and each line of the log is sent as an event of the
task.
-/

namespace JobGraph

/-! ## Lines of text -/

namespace Text

/-- What comes after a character that stays does not bring anything before it to go. -/
theorem dropEndWhile_append_append {test : Char → Bool} {last : Char} (stays : test last = false)
    (front rest : List Char) :
    dropEndWhile test (front ++ [last] ++ rest) = front ++ [last] ++ dropEndWhile test rest := by
  rw [dropEndWhile, List.reverse_append, List.dropWhile_append]
  split_ifs with gone
  · have nothing : dropEndWhile test rest = [] := by
      rw [dropEndWhile, List.isEmpty_iff.1 gone, List.reverse_nil]
    rw [nothing, List.append_nil]
    exact dropEndWhile_append_of_not stays front
  · rw [List.reverse_append, List.reverse_reverse, dropEndWhile]

/-- The line that has been begun at the end of a text. -/
def openLine (last : String) : List String := if last = "" then [] else [last]

theorem lines_openLine {last : String} (unbroken : '\n' ∉ last.toList) :
    lines (encodeUtf8 last) = openLine last := by
  rw [lines_of_no_newline (mt newline_mem_encodeUtf8.1 unbroken), openLine, decodeUtf8?_encodeUtf8]
  simp only [List.isEmpty_iff, encodeUtf8_eq_nil, Option.toList_some]

end Text

/-! ## Shares of lines -/

/-- What a line of output gives. -/
inductive Share where
  | log (severity : Severity) (message : String)
  | write (write : StoreWrite)
  | result (failed aborted : Bool)
  deriving DecidableEq, Repr

namespace Share

def log? : Share → Option (Severity × String)
  | .log severity message => some (severity, message)
  | _ => none

def write? : Share → Option StoreWrite
  | .write made => some made
  | _ => none

def result? : Share → Option (Bool × Bool)
  | .result failed aborted => some (failed, aborted)
  | _ => none

def ofFrame : WorkerFrame → Share
  | .log severity message => .log severity message
  | .storeSet key value => .write (.set key value)
  | .storeRemove key => .write (.remove key)
  | .finished failed aborted => .result failed aborted

def ofRead : OutputLine → Share
  | .text content => .log .info content
  | .frame read => ofFrame read

variable (reason : String → String)

/-- What a line is taken for. -/
def ofLine (line : String) : Share :=
  match OutputLine.decode line with
  | .ok read => ofRead read
  | .error error => .log .error (error.message ++ reason (OutputLine.content line))

/-- A line is taken by its content. -/
theorem ofLine_congr {first second : String}
    (same : OutputLine.content first = OutputLine.content second) :
    ofLine reason first = ofLine reason second := by
  rw [ofLine, ofLine, OutputLine.decode_congr same, same]

theorem log?_ofLine (line : String) :
    (ofLine reason line).log? = OutputLine.logLine? reason line := by
  unfold ofLine OutputLine.logLine?
  rcases OutputLine.decode line with error | ⟨frame | content⟩
  · rfl
  · cases frame <;> rfl
  · rfl

theorem write?_ofLine (line : String) :
    (ofLine reason line).write? = (OutputLine.frame? line).bind WorkerFrame.write? := by
  unfold ofLine OutputLine.frame?
  rcases OutputLine.decode line with error | ⟨frame | content⟩
  · rfl
  · cases frame <;> rfl
  · rfl

theorem result?_ofLine (line : String) :
    (ofLine reason line).result? = (OutputLine.frame? line).bind WorkerFrame.result? := by
  unfold ofLine OutputLine.frame?
  rcases OutputLine.decode line with error | ⟨frame | content⟩
  · rfl
  · cases frame <;> rfl
  · rfl

end Share

/-- A frame that can be read back gives what it says. -/
theorem Share.ofLine_line {frame : WorkerFrame} (plain : frame.Plain)
    (shallow : frame.depth ≤ Json.maximumDepth) (reason : String → String) :
    ofLine reason frame.line = ofFrame frame := by
  rw [ofLine, OutputLine.decode_line frame plain, if_pos shallow]
  rfl

namespace OutputLine

/-- Whether a line starts with the mark of frames. -/
def Marked (line : String) : Prop := frameMark.toList <+: line.toList

theorem decode_of_marked {line : String} (marked : Marked line) :
    (∃ frame, decode line = .ok (.frame frame)) ∨
      decode line = .error (.protocol .workerFrame) := by
  obtain ⟨rest, parts⟩ := marked
  have kept : Text.dropEndWhile (fun c => decide (c = '\r') || decide (c = '\n')) line.toList =
      frameMark.toList ++
        Text.dropEndWhile (fun c => decide (c = '\r') || decide (c = '\n')) rest := by
    rw [← parts]
    exact Text.dropEndWhile_append_append rfl "\x1edagrun".toList rest
  unfold decode
  rw [content, kept, String.toList_ofList, afterMark?_append]
  dsimp only
  split
  next frame _ => exact Or.inl ⟨frame, rfl⟩
  next => exact Or.inr rfl

/-- The lines of a text, whether their last one has an end or not, are taken as they are by whatever
takes them by their content. -/
theorem map_lines_whole {α : Type} {taken : String → α}
    (byContent : ∀ {first second}, content first = content second → taken first = taken second)
    {lines : List String} {last : String} (whole : ∀ line ∈ lines, '\n' ∉ line.toList)
    (unbroken : '\n' ∉ last.toList) :
    (Text.lines (Text.encodeUtf8
      (String.join (lines.map fun line => line ++ "\n") ++ last))).map taken =
        (lines ++ Text.openLine last).map taken := by
  induction lines with
  | nil =>
    rw [List.map_nil, String.join_nil, String.empty_append, Text.lines_openLine unbroken,
      List.nil_append]
  | cons line rest inductionHypothesis =>
    obtain ⟨first, others⟩ := List.forall_mem_cons.1 whole
    obtain ⟨shorter, lines, same⟩ := exists_lines_of_content_eq first
      (Text.encodeUtf8 (String.join (rest.map fun line => line ++ "\n") ++ last))
    rw [List.map_cons, String.join_cons, String.append_assoc, Text.encodeUtf8_append, lines,
      List.map_cons, inductionHypothesis others, byContent same, List.cons_append, List.map_cons]

end OutputLine

/-- How a line gives its share: a line without the mark of frames gives a line of the log as it
stands, a line with the mark gives what its frame says, and a complaint with the reason if it holds
no frame. -/
inductive Gives (reason : String → String) : String → Share → Prop
  | text {line : String} : ¬OutputLine.Marked line →
      Gives reason line (.log .info (OutputLine.content line))
  | frame {line : String} {frame : WorkerFrame} : OutputLine.Marked line →
      OutputLine.decode line = .ok (.frame frame) → Gives reason line (.ofFrame frame)
  | broken {line : String} : OutputLine.Marked line →
      (∀ frame, OutputLine.decode line ≠ .ok (.frame frame)) →
      Gives reason line (.log .error
        ("worker protocol error: malformed frame from worker" ++ reason (OutputLine.content line)))

theorem gives_iff {reason : String → String} {line : String} {share : Share} :
    Gives reason line share ↔ share = .ofLine reason line := by
  constructor
  · intro gives
    unfold Share.ofLine
    cases gives with
    | text unmarked =>
      rw [OutputLine.decode_of_unmarked unmarked]
      rfl
    | frame _ decoded =>
      rw [decoded]
      rfl
    | broken marked none_ =>
      rcases OutputLine.decode_of_marked marked with ⟨frame, decoded⟩ | refused
      · exact absurd decoded (none_ frame)
      · rw [refused]
        rfl
  · rintro rfl
    unfold Share.ofLine
    by_cases marked : OutputLine.Marked line
    · rcases OutputLine.decode_of_marked marked with ⟨frame, decoded⟩ | refused
      · rw [decoded]
        exact .frame marked decoded
      · rw [refused]
        exact .broken marked fun frame decoded => by cases refused.symm.trans decoded
    · rw [OutputLine.decode_of_unmarked marked]
      exact .text marked

theorem forall₂_gives_iff {reason : String → String} {lines : List String} {shares : List Share} :
    List.Forall₂ (Gives reason) lines shares ↔ shares = lines.map (.ofLine reason) := by
  induction lines generalizing shares with
  | nil => simp
  | cons line rest inductionHypothesis =>
    cases shares with
    | nil => simp
    | cons share others => simp [gives_iff, inductionHypothesis]

/-- What is read of lines is what they give. -/
theorem Reading.ofLines_eq_shares (reason : String → String) (lines : List String) :
    Reading.ofLines reason lines =
      ⟨(lines.map (Share.ofLine reason)).filterMap Share.log?,
        (lines.map (Share.ofLine reason)).filterMap Share.write?,
        ((lines.map (Share.ofLine reason)).filterMap Share.result?).getLast?⟩ := by
  rw [ofLines_eq]
  simp only [List.filterMap_filterMap, List.filterMap_map, Function.comp_def, Share.log?_ofLine,
    Share.write?_ofLine, Share.result?_ofLine]

/-! ## Lines as events -/

/-- How an attempt in a process shows what it does: its lines come when it ends. -/
def ProcessAttempt.performance (made : ProcessAttempt) : Performance :=
  let finish := made.length + Executable.workerStart
  ⟨made.files.map (fun (moment, file) => (moment + Executable.workerStart, .file file)) ++
      made.lines.map (fun (severity, message) => (finish, .line severity message)),
    finish, made.result⟩

/-- The event by which others learn of what an attempt shows. -/
def Happening.event? (name : String) : Happening → Option Event
  | .line severity message => some (.logged ⟨name, severity, message⟩)
  | .file _ => none

/-- What an attempt shows that is under way is sent under the name of its task. -/
theorem Rehearsal.present_eq {rehearsal : Rehearsal} {name : String} {runner : Runner}
    (found : rehearsal.run.find? name = some runner) (attempting : runner.phase = .attempting)
    (happening : Happening) :
    (rehearsal.present name happening).run.scene.events =
        rehearsal.run.scene.events ++ (happening.event? name).toList ∧
      (rehearsal.present name happening).run.find? name = some runner ∧
      (rehearsal.present name happening).now = rehearsal.now := by
  cases happening with
  | line severity message =>
    have step : rehearsal.run.step? (.line name severity message) =
        some { rehearsal.run with
          scene := rehearsal.run.scene.send (.logged ⟨name, severity, message⟩) } := by
      rw [Run.step?, found]
      exact if_pos attempting
    rw [present, take, take?, step]
    exact ⟨rfl, found, rfl⟩
  | file file =>
    rw [present]
    split
    · exact ⟨(List.append_nil _).symm, found, rfl⟩
    · exact ⟨(List.append_nil _).symm, found, rfl⟩

theorem Rehearsal.events_take_ended (rehearsal : Rehearsal) (name : String)
    (result : AttemptResult) :
    (rehearsal.take (.ended name result)).run.scene.events = rehearsal.run.scene.events := by
  rw [take, take?, Run.step?]
  cases rehearsal.run.find? name with
  | none => rfl
  | some runner =>
    dsimp only [Option.bind_eq_bind, Option.bind_some]
    cases runner.ended? result <;> rfl

/-- An attempt for which the clock has gone far enough shows all that it has not yet shown, and
ends. -/
theorem Rehearsal.perform_eq {fuel : Nat} {attempt : Attempt} {rehearsal : Rehearsal}
    {runner : Runner} (found : rehearsal.run.find? attempt.name = some runner)
    (attempting : runner.phase = .attempting)
    (due : ∀ happening ∈ attempt.plan.happenings, attempt.started + happening.1 ≤ rehearsal.now)
    (ends : attempt.started + attempt.plan.length ≤ rehearsal.now)
    (shown : attempt.shown ≤ attempt.plan.happenings.length)
    (enough : attempt.plan.happenings.length < attempt.shown + fuel) :
    (perform fuel attempt rehearsal).1.run.scene.events =
        rehearsal.run.scene.events ++ (attempt.plan.happenings.drop attempt.shown).filterMap
          (fun happening => happening.2.event? attempt.name) ∧
      (perform fuel attempt rehearsal).2 = none := by
  induction fuel generalizing attempt rehearsal with
  | zero => omega
  | succ fuel inductionHypothesis =>
    cases next : attempt.next? with
    | none =>
      have all : attempt.plan.happenings.length ≤ attempt.shown := List.getElem?_eq_none_iff.1 next
      have now : ¬rehearsal.now < attempt.due := by
        rw [Attempt.due, next]
        exact Nat.not_lt.2 ends
      rw [perform, if_neg now, next, List.drop_eq_nil_of_le all, List.filterMap_nil,
        List.append_nil]
      exact ⟨events_take_ended .., rfl⟩
    | some happening =>
      obtain ⟨below, there⟩ := List.getElem?_eq_some_iff.1 next
      have now : ¬rehearsal.now < attempt.due := by
        rw [Attempt.due, next]
        exact Nat.not_lt.2 (due happening (there ▸ List.getElem_mem below))
      obtain ⟨events, still, clock⟩ := present_eq found attempting happening.2
      rw [perform, if_neg now, next]
      obtain ⟨rest, ended⟩ := @inductionHypothesis { attempt with shown := attempt.shown + 1 }
        (rehearsal.present attempt.name happening.2) still (clock ▸ due) (clock ▸ ends) below
        (by dsimp only; omega)
      refine ⟨rest.trans ?_, ended⟩
      rw [events, List.drop_eq_getElem_cons below, there, List.filterMap_cons]
      cases happening.2.event? attempt.name with
      | none =>
        rw [Option.toList_none, List.append_nil]
        rfl
      | some event =>
        rw [Option.toList_some, List.append_assoc, List.singleton_append]
        rfl

/-- The attempt is under way and has shown nothing yet, and all of it is due. -/
structure Rehearsal.Awaits (rehearsal : Rehearsal) (attempt : Attempt) : Prop where
  unshown : attempt.shown = 0
  attempting : ∃ runner, rehearsal.run.find? attempt.name = some runner ∧
    runner.phase = .attempting
  due : ∀ happening ∈ attempt.plan.happenings, attempt.started + happening.1 ≤ rehearsal.now
  ends : attempt.started + attempt.plan.length ≤ rehearsal.now

/-- The lines of the log of an attempt in a process are sent in their order under the name of its
task. -/
theorem Rehearsal.events_carryOn {rehearsal : Rehearsal} {attempt : Attempt} {made : ProcessAttempt}
    (awaits : rehearsal.Awaits attempt) (plan : attempt.plan = made.performance) :
    (carryOn attempt rehearsal).1.run.scene.events =
      rehearsal.run.scene.events ++
        made.lines.map fun line => .logged ⟨attempt.name, line.1, line.2⟩ := by
  obtain ⟨runner, found, attempting⟩ := awaits.attempting
  have enough : attempt.plan.happenings.length <
      attempt.shown + (attempt.plan.happenings.length + 1) := by omega
  have all := perform_eq found attempting awaits.due awaits.ends
    (awaits.unshown ▸ Nat.zero_le _) enough
  have shown : attempt.plan.happenings.filterMap (fun happening =>
      happening.2.event? attempt.name) =
        made.lines.map fun line => .logged ⟨attempt.name, line.1, line.2⟩ := by
    rw [plan, ProcessAttempt.performance, List.filterMap_append, List.filterMap_map,
      List.filterMap_map]
    have files : made.files.filterMap ((fun happening => happening.2.event? attempt.name) ∘
        fun (moment, file) => (moment + Executable.workerStart, Happening.file file)) = [] :=
      List.filterMap_eq_nil_iff.2 fun _ _ => rfl
    rw [files, List.nil_append, ← List.filterMap_eq_map]
    rfl
  rw [carryOn, all.1, awaits.unshown, List.drop_zero, shown]

/-! ## The account -/

namespace Reading

/-- The complaint about a worker that has ended without a result. -/
def missing (results : List (Bool × Bool)) (status : ExitStatus) : List (Severity × String) :=
  if results = [] then
    [(.error, "worker exited (" ++ status.message ++ ") without reporting a result")]
  else []

theorem close_lines (reading : Reading) {results : List (Bool × Bool)}
    (last : reading.result = results.getLast?) (status : ExitStatus) :
    (reading.close status).lines = reading.lines ++ missing results status := by
  rw [close, missing]
  cases found : reading.result with
  | none =>
    rw [if_pos (List.getLast?_eq_none_iff.1 (last ▸ found))]
    rfl
  | some result =>
    have some_ : results ≠ [] := by
      rintro rfl
      cases found.symm.trans last
    rw [if_neg some_, List.append_nil]

theorem report_close (reading : Reading) (status : ExitStatus) (cancelled : Bool) :
    (reading.close status).report status cancelled = reading.report status cancelled := by
  rw [close]
  split <;> rfl

theorem report_failed_iff (reading : Reading) (status : ExitStatus) :
    (reading.report status false).failed = false ↔
      status.isSuccess = true ∧ ∃ aborted, reading.result = some (false, aborted) := by
  rw [report]
  rcases reading.result with _ | ⟨failed, aborted⟩
  · simp
  · simp [and_comm]

theorem report_aborted_iff (reading : Reading) (status : ExitStatus) :
    (reading.report status false).aborted = true ↔
      ∃ failed, reading.result = some (failed, true) := by
  rw [report]
  rcases reading.result with _ | ⟨failed, aborted⟩
  · simp
  · simp

end Reading

/-- Each line that a worker puts out gives one share of what comes of its attempt, and only one.
The writes of the report are those of the shares in their order; the attempt has not failed exactly
if the worker has ended well and its last result says so; and it counts as aborted if its last
result says so.  The log has the lines of the shares and those of the error stream, each in their
order, and last a complaint if there was no result, and each of them becomes an event of the
task. -/
theorem every_line_is_accounted_for {lines : List String} {last : String}
    (whole : ∀ line ∈ lines, '\n' ∉ line.toList) (unbroken : '\n' ∉ last.toList) {run : CommandRun}
    (sent : run.bytes .output =
      Text.encodeUtf8 (String.join (lines.map fun line => line ++ "\n") ++ last))
    {finish : Nat} {status : ExitStatus} (ended : run.finish = some (finish, status))
    {telling : Telling} {made : ProcessAttempt}
    (attempt : Executable.conclude telling run false = made) :
    (∀ line, ∃! share, Gives telling.reason line share) ∧
    ∃ (shares : List Share) (results : List (Bool × Bool)) (report : Report)
      (shown : List (Severity × String)),
      List.Forall₂ (Gives telling.reason) (lines ++ Text.openLine last) shares ∧
      shares.filterMap Share.result? = results ∧
      made.result = .report report ∧
      report.writes = shares.filterMap Share.write? ∧
      (report.failed = false ↔
        status.isSuccess = true ∧ ∃ aborted, results.getLast? = some (false, aborted)) ∧
      (report.aborted = true ↔ ∃ failed, results.getLast? = some (failed, true)) ∧
      Woven (shares.filterMap Share.log?)
        ((Text.lines (run.bytes .errors)).map fun line => (.error, line)) shown ∧
      (telling.order = [] → shown = shares.filterMap Share.log? ++
        (Text.lines (run.bytes .errors)).map fun line => (.error, line)) ∧
      made.lines = shown ++ Reading.missing results status ∧
      ∀ (rehearsal : Rehearsal) (attempt : Attempt),
        rehearsal.Awaits attempt → attempt.plan = made.performance →
        (Rehearsal.carryOn attempt rehearsal).1.run.scene.events =
          rehearsal.run.scene.events ++
            made.lines.map fun line => .logged ⟨attempt.name, line.1, line.2⟩ := by
  have shares : (Text.lines (run.bytes .output)).map (Share.ofLine telling.reason) =
      (lines ++ Text.openLine last).map (Share.ofLine telling.reason) := by
    rw [sent]
    exact OutputLine.map_lines_whole (Share.ofLine_congr telling.reason) whole unbroken
  have reading := Reading.ofLines_eq_shares telling.reason (Text.lines (run.bytes .output))
  rw [shares] at reading
  set given := (lines ++ Text.openLine last).map (Share.ofLine telling.reason)
  set errors := (Text.lines (run.bytes .errors)).map fun line => (Severity.error, line)
  have concluded : made = ⟨Telling.weave telling.order (given.filterMap Share.log?) errors ++
        Reading.missing (given.filterMap Share.result?) status, run.files, finish,
      .report (Reading.report ⟨[], given.filterMap Share.write?,
        (given.filterMap Share.result?).getLast?⟩ status false)⟩ := by
    rw [← attempt, Executable.conclude, ended]
    dsimp only [Option.getD_some]
    rw [reading, Reading.withErrors, Reading.close_lines _ rfl, Reading.report_close]
    rfl
  have plain : telling.order = [] →
      Telling.weave telling.order (given.filterMap Share.log?) errors =
        given.filterMap Share.log? ++ errors := fun nothing => by rw [nothing, Telling.weave]
  exact ⟨fun line => ⟨_, gives_iff.2 rfl, fun _ => gives_iff.1⟩, given, _, _, _,
    forall₂_gives_iff.2 rfl, rfl, congrArg ProcessAttempt.result concluded, rfl,
    Reading.report_failed_iff _ _, Reading.report_aborted_iff _ _, .weave .., plain,
    congrArg ProcessAttempt.lines concluded,
    fun rehearsal attempt awaits plan => rehearsal.events_carryOn awaits plan⟩

/-- Lines of all kinds, among them two results. -/
def OutputLine.motley : List String :=
  ["hello", (WorkerFrame.finished true true).line, frameMark ++ "nope",
    (WorkerFrame.storeSet "k" .null).line, (WorkerFrame.log .warning "careful").line,
    (WorkerFrame.finished false false).line]

/-- A run whose only task is at work. -/
def Run.attempting : Run :=
  let run := Run.start .lone 1 .empty .empty false false false none
  (run.steps? (List.replicate 9 (.runner "a"))).getD run

/-- A rehearsal of that run at a moment. -/
def Rehearsal.attempting (now : Nat) : Rehearsal where
  run := .attempting
  now := now
  ready := []
  attempts := []
  rests := []
  tick := none
  cancel := none
  files := []
  noticeTimes := []
  launchTimes := [0]
  writeTimes := []
  ended := []
  peak := 1

/-- The attempt of the task, with what it has to show. -/
def Attempt.unshown (plan : Performance) : Attempt :=
  ⟨⟨"a", "Sleep", .null, [], 1, false, .empty⟩, 0, [], none, plan, 0⟩

theorem Rehearsal.attempting_awaits {made : ProcessAttempt} (files : made.files = []) :
    (attempting made.performance.length).Awaits (.unshown made.performance) := by
  refine ⟨rfl, ⟨_, rfl, rfl⟩, fun happening listed => ?_, (Nat.zero_add _).le⟩
  have lines : happening ∈ made.lines.map fun (severity, message) =>
      (made.length + Executable.workerStart, Happening.line severity message) := by
    simpa [Attempt.unshown, ProcessAttempt.performance, files] using listed
  obtain ⟨line, -, rfl⟩ := List.mem_map.1 lines
  exact (Nat.zero_add _).le

/-- The reader of JSON says where it has stopped. -/
def Telling.expecting : Telling := ⟨fun _ => ": expected ident at line 1 column 2", []⟩

theorem motley_lines_are_accounted_for :
    ∃ (run : CommandRun) (made : ProcessAttempt),
      run.bytes .output =
          Text.encodeUtf8 (String.join (OutputLine.motley.map fun line => line ++ "\n") ++ "bye") ∧
        run.bytes .errors = Text.encodeUtf8 "oops" ∧
        run.finish = some (5, .code 0) ∧
        Executable.conclude .expecting run false = made ∧
        made.result = .report ⟨false, false, [.set "k" .null]⟩ ∧
        made.lines =
          [(.info, "hello"),
            (.error, "worker protocol error: malformed frame from worker" ++
              ": expected ident at line 1 column 2"),
            (.warning, "careful"), (.info, "bye"), (.error, "oops")] ∧
        ∃ (rehearsal : Rehearsal) (attempt : Attempt), rehearsal.Awaits attempt ∧
          attempt.plan = made.performance ∧
          (Rehearsal.carryOn attempt rehearsal).1.run.scene.events =
            rehearsal.run.scene.events ++
              made.lines.map fun line => .logged ⟨"a", line.1, line.2⟩ := by
  let output := String.join (OutputLine.motley.map fun line => line ++ "\n") ++ "bye"
  let run : CommandRun := ⟨[⟨1, .output, Text.encodeUtf8 output⟩,
    ⟨1, .errors, Text.encodeUtf8 "oops"⟩], [], some (5, .code 0), 1⟩
  have bytes : run.bytes .output = Text.encodeUtf8 output := by simp [run, CommandRun.bytes]
  have complained : run.bytes .errors = Text.encodeUtf8 "oops" := by simp [run, CommandRun.bytes]
  have oops : Text.lines (run.bytes .errors) = ["oops"] := by
    rw [complained, Text.lines_openLine (by decide)]
    rfl
  have null : (WorkerFrame.storeSet "k" .null).Plain := ⟨trivial, trivial, trivial⟩
  have whole : ∀ line ∈ OutputLine.motley, '\n' ∉ line.toList := by
    simp only [OutputLine.motley, List.forall_mem_cons, List.not_mem_nil, false_implies,
      implies_true, and_true]
    exact ⟨by decide, WorkerFrame.newline_not_mem_line trivial, by decide,
      WorkerFrame.newline_not_mem_line null, WorkerFrame.newline_not_mem_line trivial,
      WorkerFrame.newline_not_mem_line trivial⟩
  obtain ⟨-, shares, results, report, shown, gives, given, result, writes, failed, aborted, -,
      plain, logged, told⟩ :=
    every_line_is_accounted_for whole (show '\n' ∉ "bye".toList by decide) bytes
      (rfl : run.finish = some (5, .code 0)) (rfl : Executable.conclude .expecting run false = _)
  have known : shares = [.log .info "hello", .result true true,
      .log .error ("worker protocol error: malformed frame from worker" ++
        ": expected ident at line 1 column 2"), .write (.set "k" .null),
      .log .warning "careful", .result false false, .log .info "bye"] := by
    have hello : Share.ofLine Telling.expecting.reason "hello" = .log .info "hello" := by decide
    have nope : Share.ofLine Telling.expecting.reason (frameMark ++ "nope") =
        .log .error ("worker protocol error: malformed frame from worker" ++
          ": expected ident at line 1 column 2") := by decide +kernel
    have first := Share.ofLine_line
      (show (WorkerFrame.finished true true).Plain from trivial) (by decide)
    have write := Share.ofLine_line null (by decide)
    have careful := Share.ofLine_line
      (show (WorkerFrame.log .warning "careful").Plain from trivial) (by decide)
    have second := Share.ofLine_line
      (show (WorkerFrame.finished false false).Plain from trivial) (by decide)
    have bye : (Text.openLine "bye").map (Share.ofLine Telling.expecting.reason) =
        [.log .info "bye"] := by decide
    rw [forall₂_gives_iff.1 gives, List.map_append, bye, OutputLine.motley]
    simp only [List.map_cons, List.map_nil, hello, nope, first, write, careful, second]
    rfl
  subst known given
  obtain ⟨reportFailed, reportAborted, reportWrites⟩ := report
  refine ⟨run, _, bytes, complained, rfl, rfl, ?_, ?_, ?_⟩
  · have succeeds : reportFailed = false := failed.2 ⟨rfl, false, rfl⟩
    have goesOn : reportAborted = false := by
      refine Bool.eq_false_iff.2 fun stops => ?_
      obtain ⟨_, last⟩ := aborted.1 stops
      cases last
    subst succeeds goesOn
    rw [result, show reportWrites = [.set "k" .null] from writes]
  · rw [logged, plain rfl, oops]
    rfl
  · have files : (Executable.conclude .expecting run false).files = [] := rfl
    have awaits := Rehearsal.attempting_awaits files
    exact ⟨_, _, awaits, rfl, told _ _ awaits rfl⟩

end JobGraph
