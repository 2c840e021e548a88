import JobGraph.Proofs.Worker.Deeds
import JobGraph.Proofs.Worker.Streams
import JobGraph.Worker.Process

/-!
# Reports tell what tasks did

A worker goes through the lifecycle of a task and sends what the task does line by line; the run
reads these lines and the exit code.  What the run makes of them is what the task did
(`report_is_what_task_did`): the writes in their order, the lines of the log, and a failure exactly
if a hook failed or panicked or marked the attempt as failed.
-/

namespace JobGraph

open Json (Value maximumDepth)

/-! ## Lines that are sent -/

namespace OutputLine

/-- What is read from a line that a worker sends. -/
def trimmed : OutputLine → OutputLine
  | .frame sent => .frame sent
  | .text line => .text (content line)

/-- A frame that can be read back, or a whole line of text that is not taken for a frame. -/
def Proper : OutputLine → Prop
  | .frame sent => sent.Plain ∧ sent.depth ≤ maximumDepth
  | .text line => '\n' ∉ line.toList ∧ ¬frameMark.toList <+: line.toList

theorem content_append_return (line : String) : content (line ++ "\r") = content line := by
  rw [content, String.toList_append]
  exact congrArg String.ofList (Text.dropEndWhile_append_of rfl _)

/-- The first line of a text is read as it was put out, though a return at its end is lost. -/
theorem exists_lines_of_content_eq {line : String} (unbroken : '\n' ∉ line.toList)
    (rest : List UInt8) :
    ∃ shorter, Text.lines (Text.encodeUtf8 (line ++ "\n") ++ rest) = shorter :: Text.lines rest ∧
      content shorter = content line := by
  obtain ⟨shorter, kind, lines⟩ := Text.exists_lines_encodeUtf8_append unbroken rest
  refine ⟨shorter, lines, ?_⟩
  rcases kind with rfl | rfl
  · rfl
  · exact (content_append_return shorter).symm

/-- Every line that is sent is read as it is, one after the other. -/
theorem map_decode_lines {sent : List OutputLine} (proper : ∀ line ∈ sent, line.Proper) :
    (Text.lines (Text.encodeUtf8 (String.join (sent.map WorkerEnd.lineText)))).map decode =
      (sent.map trimmed).map .ok := by
  induction sent with
  | nil =>
    rw [List.map_nil, String.join_nil, Text.encodeUtf8_empty]
    rfl
  | cons line rest inductionHypothesis =>
    obtain ⟨first, others⟩ := List.forall_mem_cons.1 proper
    have rest_ := inductionHypothesis others
    rw [List.map_cons, String.join_cons, Text.encodeUtf8_append]
    cases line with
    | frame sent =>
      obtain ⟨plain, shallow⟩ := first
      have lines := WorkerFrame.lines_encode_append plain "" (by simp)
        (Text.encodeUtf8 (String.join (rest.map WorkerEnd.lineText)))
      rw [Text.encodeUtf8_empty, List.nil_append, String.empty_append] at lines
      rw [WorkerEnd.lineText, lines, List.map_cons, List.map_cons, rest_, decode_line sent plain,
        if_pos shallow]
      rfl
    | text line =>
      obtain ⟨unbroken, unmarked⟩ := first
      obtain ⟨shorter, lines, same⟩ := exists_lines_of_content_eq unbroken
        (Text.encodeUtf8 (String.join (rest.map WorkerEnd.lineText)))
      rw [WorkerEnd.lineText, lines, List.map_cons, List.map_cons, rest_, decode_congr same,
        decode_of_unmarked unmarked]
      rfl

end OutputLine

/-- What is read of lines that are sent. -/
theorem Reading.ofLines_sent {sent : List OutputLine} (proper : ∀ line ∈ sent, line.Proper)
    (reason : String → String) :
    Reading.ofLines reason
        (Text.lines (Text.encodeUtf8 (String.join (sent.map WorkerEnd.lineText)))) =
      ⟨sent.filterMap fun line => line.trimmed.log?,
        (sent.filterMap fun line => OutputLine.frameIn? (.ok line.trimmed)).filterMap
          WorkerFrame.write?,
        ((sent.filterMap fun line => OutputLine.frameIn? (.ok line.trimmed)).filterMap
          WorkerFrame.result?).getLast?⟩ := by
  have decoded := OutputLine.map_decode_lines proper
  rw [Reading.ofLines_eq, OutputLine.filterMap_logLine? decoded reason,
    OutputLine.filterMap_frame? decoded, List.filterMap_map, List.filterMap_map]
  rfl

/-! ## Deeds that are sent -/

namespace Operation

/-- The line of the log that an operation is, if it is one. -/
def logLine? : Operation → Option (Severity × String)
  | .log severity message => some (severity, message)
  | .print line => some (.info, OutputLine.content line)
  | _ => none

/-- An operation of a hook: a line that it prints is one whole line without the mark of a frame at
its start, and a value that it writes can be read back from its frame. -/
def Proper : Operation → Prop
  | .print line => '\n' ∉ line.toList ∧ ¬frameMark.toList <+: line.toList
  | .set _ value => value.Plain ∧ value.depth + 1 ≤ maximumDepth
  | operation => operation.isReserved = false

theorem Proper.isReserved {operation : Operation} (proper : operation.Proper) :
    operation.isReserved = false := by
  cases operation <;> first | rfl | exact proper

theorem Proper.line? {operation : Operation} (proper : operation.Proper) :
    ∀ line ∈ operation.line?, line.Proper := by
  intro line sent
  cases operation with
  | log severity message =>
    obtain rfl := Option.some.inj sent
    exact ⟨trivial, show 1 ≤ maximumDepth by decide⟩
  | print text =>
    obtain rfl := Option.some.inj sent
    exact proper
  | set key value =>
    obtain rfl := Option.some.inj sent
    exact ⟨proper.1, (WorkerFrame.depth_storeSet key value).trans_le proper.2⟩
  | remove key =>
    obtain rfl := Option.some.inj sent
    exact ⟨trivial, show 1 ≤ maximumDepth by decide⟩
  | report failed aborted => cases proper
  | _ => cases sent

theorem bind_line?_log (operation : Operation) :
    (operation.line?.bind fun line => line.trimmed.log?) = operation.logLine? := by
  cases operation <;> rfl

theorem bind_line?_write (operation : Operation) :
    (operation.line?.bind fun line =>
      (OutputLine.frameIn? (.ok line.trimmed)).bind WorkerFrame.write?) = operation.write? := by
  cases operation <;> rfl

end Operation

namespace Deed

/-- The lines of the log that a hook causes. -/
def logLines (deed : Deed) : List (Severity × String) :=
  deed.operations.filterMap Operation.logLine? ++
    (deed.complaint?.map fun message => (.error, message)).toList

theorem proper_lines {deed : Deed} (proper : ∀ operation ∈ deed.operations, operation.Proper) :
    ∀ line ∈ deed.lines, line.Proper := by
  intro line sent
  rcases List.mem_append.1 sent with done | told
  · obtain ⟨operation, listed, same⟩ := List.mem_filterMap.1 done
    exact (proper operation listed).line? line same
  · obtain ⟨message, -, rfl⟩ := Option.map_eq_some_iff.1 (Option.mem_toList.1 told)
    exact ⟨trivial, show 1 ≤ maximumDepth by decide⟩

theorem filterMap_lines_log (deed : Deed) :
    (deed.lines.filterMap fun line => line.trimmed.log?) = deed.logLines := by
  have told : ∀ complaint : Option String,
      ((complaint.map fun message => OutputLine.frame (.log .error message)).toList.filterMap
        fun line => line.trimmed.log?) =
          (complaint.map fun message => (Severity.error, message)).toList := by
    intro complaint
    cases complaint <;> rfl
  rw [lines, logLines, List.filterMap_append, List.filterMap_filterMap, told]
  simp only [Operation.bind_line?_log]

theorem filterMap_lines_write (deed : Deed) :
    ((deed.lines.filterMap fun line => OutputLine.frameIn? (.ok line.trimmed)).filterMap
      WorkerFrame.write?) = deed.writes := by
  have told : ∀ complaint : Option String,
      ((complaint.map fun message => OutputLine.frame (.log .error message)).toList.filterMap
        fun line => OutputLine.frameIn? (.ok line.trimmed)).filterMap WorkerFrame.write? = [] := by
    intro complaint
    cases complaint <;> rfl
  rw [lines, writes, List.filterMap_append, List.filterMap_append, told, List.append_nil,
    List.filterMap_filterMap, List.filterMap_filterMap]
  simp only [Operation.bind_line?_write]

end Deed

/-- The lines of deeds and the result after them. -/
def Deed.output (deeds : List Deed) (failed : Bool) : List OutputLine :=
  deeds.flatMap lines ++ [.frame (.finished failed false)]

/-- What is read of the lines of deeds and of the result after them. -/
theorem Reading.ofLines_deeds {deeds : List Deed}
    (proper : ∀ deed ∈ deeds, ∀ operation ∈ deed.operations, operation.Proper) (failed : Bool)
    (reason : String → String) :
    Reading.ofLines reason (Text.lines (Text.encodeUtf8
      (String.join ((Deed.output deeds failed).map WorkerEnd.lineText)))) =
      ⟨deeds.flatMap Deed.logLines, deeds.flatMap Deed.writes, some (failed, false)⟩ := by
  have sent : ∀ line ∈ Deed.output deeds failed, line.Proper := by
    intro line sent
    rcases List.mem_append.1 sent with done | last
    · obtain ⟨deed, listed, mem⟩ := List.mem_flatMap.1 done
      exact Deed.proper_lines (proper deed listed) line mem
    · rw [List.mem_singleton.1 last]
      exact ⟨trivial, show 1 ≤ maximumDepth by decide⟩
  have frame : [OutputLine.frame (.finished failed false)].filterMap
      (fun line => OutputLine.frameIn? (.ok line.trimmed)) = [.finished failed false] := rfl
  have logged : [OutputLine.frame (.finished failed false)].filterMap
      (fun line => line.trimmed.log?) = [] := rfl
  have written : [WorkerFrame.finished failed false].filterMap WorkerFrame.write? = [] := rfl
  have ended : [WorkerFrame.finished failed false].filterMap WorkerFrame.result? =
      [(failed, false)] := rfl
  rw [Reading.ofLines_sent sent reason]
  simp only [Deed.output, List.filterMap_append, List.filterMap_flatMap, Deed.filterMap_lines_log,
    Deed.filterMap_lines_write, frame, logged, written, ended, List.append_nil,
    List.getLast?_concat]

/-! ## Attempts -/

/-- The lifecycle thread of a worker that is not told to stop goes through the lifecycle and reports
how it went. -/
theorem TaskHooks.run_lifecycleThread {task : TaskHooks} {context : Context}
    (going : (task.after context).aborted = false) :
    task.lifecycleThread.run context =
      ({ task.after context with finished := true }.send
          (.finished (task.after context).failed false),
        some (if (task.after context).failed then 1 else 0)) := by
  unfold lifecycleThread
  rw [Program.run_bind, run_lifecycle, Program.run_inspect_bind]
  simp only [going]
  rfl

/-- What a worker sends that makes an attempt at a task without being told to stop. -/
theorem Worker.attempt_eq {task : TaskHooks} {request : Request} {deeds : List Deed}
    (same : task.deeds (.ofRequest request) = deeds)
    (proper : ∀ deed ∈ deeds, ∀ operation ∈ deed.operations, operation.Proper) :
    (Worker.attempt task request none).before = Deed.output deeds (deeds.any Deed.failed) ∧
      (Worker.attempt task request none).after = [] ∧
      (Worker.attempt task request none).errors = [] ∧
      (Worker.attempt task request none).exit = if deeds.any Deed.failed then 1 else 0 := by
  have extends_ := task.extends_after (.ofRequest request)
  rw [same] at extends_
  have going : (task.after (.ofRequest request)).aborted = false :=
    extends_.aborted fun deed listed operation done =>
      (proper deed listed operation done).isReserved
  have failed : (task.after (.ofRequest request)).failed = deeds.any Deed.failed := extends_.failed
  have sent : (task.after (.ofRequest request)).sent = deeds.flatMap Deed.lines := extends_.sent
  have run := TaskHooks.run_lifecycleThread going
  simp only [attempt, run, Context.send, sent, failed, Deed.output, List.drop_length,
    Option.getD_some, and_self]

/-- What a run makes of a worker that was not told to stop and that has nothing on its error
stream. -/
theorem Executable.conclude_toCommandRun {worker : WorkerEnd} (after : worker.after = [])
    (errors : worker.errors = []) {telling : Telling} {reading : Reading}
    (read : (Reading.ofLines telling.reason (Text.lines (Text.encodeUtf8
      (String.join (worker.before.map WorkerEnd.lineText))))).close (.code worker.exit) = reading) :
    conclude telling worker.toCommandRun false =
      ⟨reading.lines, worker.files, worker.length,
        .report (reading.report (.code worker.exit) false)⟩ := by
  have output : worker.toCommandRun.bytes .output =
      Text.encodeUtf8 (String.join (worker.before.map WorkerEnd.lineText)) := by
    simp [CommandRun.bytes, WorkerEnd.toCommandRun, after, Text.encodeUtf8_empty]
  have nothing : worker.toCommandRun.bytes .errors = [] := by
    simp [CommandRun.bytes, WorkerEnd.toCommandRun, errors, Text.encodeUtf8_empty]
  have finish : worker.toCommandRun.finish = some (worker.length, .code worker.exit) := by
    simp [WorkerEnd.toCommandRun, after]
  have none : Text.lines [] = [] := rfl
  unfold conclude
  rw [output, nothing, finish, none]
  dsimp only [Option.getD_some]
  rw [Reading.withErrors_nil, read]
  rfl

/-- What a worker sends that cannot make the task. -/
theorem Worker.ofLines_unmade (request : Request) (failure : Failure) (reason : String → String) :
    Reading.ofLines reason (Text.lines (Text.encodeUtf8
      (String.join ((Worker.unmade request failure).before.map WorkerEnd.lineText)))) =
      ⟨[(.critical, "could not construct task '" ++ request.name ++ "': " ++ failure.oneLine)], [],
        some (true, false)⟩ := by
  have proper : ∀ line ∈ (Worker.unmade request failure).before, line.Proper := by
    intro line sent
    rcases List.mem_pair.1 sent with rfl | rfl
    all_goals exact ⟨trivial, show 1 ≤ maximumDepth by decide⟩
  exact Reading.ofLines_sent proper reason

/-- The worker that is not told to stop has a request and makes its attempt. -/
theorem Worker.serveWith_eq {make : String → Factory TaskHooks} {line : String} {request : Request}
    (read : readRequest line = .ok request) {later : List (Nat × String)}
    (undisturbed : ∀ call ∈ later, isAbort call.2 = false) (moment : Nat) :
    serveWith make ((moment, line) :: later) none = ofRequest make request none := by
  have nobody : (later.filter fun line => isAbort line.2) = [] :=
    List.filter_eq_nil_iff.2 fun call listed => by simp [undisturbed call listed]
  unfold serveWith
  simp only [List.head?_cons, Option.map_some, Option.getD_some, read, List.tail_cons, nobody,
    List.map_nil, Option.toList_none, List.append_nil, List.foldl_nil]

/-- A worker reads the request that it was sent. -/
theorem Worker.readRequest_line {request : Request} (plain : request.Plain)
    (shallow : (ControlFrame.start request).depth ≤ maximumDepth) :
    readRequest (ControlFrame.start request).line = .ok request := by
  have visible : Text.isAllBlank (ControlFrame.start request).line = false := by
    rw [Text.isAllBlank, ControlFrame.line, String.toList_ofList, Value.write_obj_eq]
    rfl
  rw [readRequest, visible, ControlFrame.decode_line (.start request) plain, if_pos shallow]
  rfl

/-- The report on an attempt, and the lines of the log, are what the task did: the attempt failed
exactly if the task could not be made or a hook failed, panicked or marked it as failed; the writes
are those of the hooks in their order; and the log has the messages and the printed lines of the
hooks, and one message more for each hook that failed or panicked. -/
theorem report_is_what_task_did (registry : Registry TaskHooks) {line : String} {request : Request}
    (read : Worker.readRequest line = .ok request) {later : List (Nat × String)}
    (undisturbed : ∀ call ∈ later, Worker.isAbort call.2 = false) (moment : Nat)
    (telling : Telling) {made : ProcessAttempt}
    (attempt : Executable.conclude telling
      (Worker.serveWith registry.construct ((moment, line) :: later) none).toCommandRun false =
        made) :
    (∀ failure, registry.construct request.variant request.parameters = .error failure →
      made.result = .report ⟨true, false, []⟩ ∧
      made.lines = [(.critical,
        "could not construct task '" ++ request.name ++ "': " ++ failure.oneLine)]) ∧
    ∀ task, registry.construct request.variant request.parameters = .ok task →
      ∀ deeds, task.deeds (.ofRequest request) = deeds →
        (∀ deed ∈ deeds, ∀ operation ∈ deed.operations, operation.Proper) →
        made.result =
          .report ⟨deeds.any Deed.failed, false, deeds.flatMap Deed.writes⟩ ∧
        made.lines = deeds.flatMap Deed.logLines := by
  rw [Worker.serveWith_eq read undisturbed] at attempt
  subst attempt
  refine ⟨?_, ?_⟩
  · intro failure refused
    have worker :
        Worker.ofRequest registry.construct request none = Worker.unmade request failure := by
      rw [Worker.ofRequest, refused]
    rw [worker, Executable.conclude_toCommandRun rfl rfl
      (congrArg (Reading.close · _) (Worker.ofLines_unmade request failure telling.reason))]
    exact ⟨rfl, rfl⟩
  · intro task built deeds same proper
    have worker : Worker.ofRequest registry.construct request none =
        Worker.attempt task request none := by
      rw [Worker.ofRequest, built]
    obtain ⟨before, after, errors, exit⟩ := Worker.attempt_eq same proper
    have reading := Reading.ofLines_deeds proper (deeds.any Deed.failed) telling.reason
    rw [← before] at reading
    rw [worker, Executable.conclude_toCommandRun after errors rfl, reading, exit]
    cases deeds.any Deed.failed <;> exact ⟨rfl, rfl⟩

/-- A task whose messages look like frames and whose work fails after it has written something. -/
def TaskHooks.clumsy : TaskHooks where
  onCreate := do
    Program.log .info "two\nlines"
    return .ok
  onRestart := Hook.nothing
  run := do
    Program.set "k" (.str frameMark)
    Program.perform (.print "done\r")
    return .failed (.ofText "broken")
  onSuccess := Hook.nothing
  onFailure := do
    let _ ← Program.remove "old"
    return .ok
  onDestroy := .done (.panicked (some frameMark))
  onAbort := Hook.nothing

/-- A registry with one variant. -/
def Registry.clumsy : Registry TaskHooks := ⟨KeyMap.empty.insert "Clumsy" fun _ => .ok .clumsy⟩

/-- A request for a first attempt at a task of a variant. -/
def Request.first (variant : String) : Request := ⟨"t", variant, .null, [], 1, false, .empty⟩

theorem clumsy_task_is_reported :
    (∃ made, Executable.conclude .plain (Worker.serveWith Registry.clumsy.construct
          [(0, (ControlFrame.start (.first "Clumsy")).line)] none).toCommandRun false = made ∧
        made.result = .report ⟨true, false, [.set "k" (.str frameMark), .remove "old"]⟩ ∧
        made.lines = [(.info, "two\nlines"), (.info, "done"), (.error, "run failed: broken"),
          (.error, "on_destroy panicked: " ++ frameMark)]) ∧
      ∃ made, Executable.conclude .plain (Worker.serveWith Registry.clumsy.construct
          [(0, (ControlFrame.start (.first "Other")).line)] none).toCommandRun false = made ∧
        made.result = .report ⟨true, false, []⟩ := by
  have null : Value.null.Plain := ⟨trivial, trivial, trivial⟩
  have read : ∀ variant, Worker.readRequest (ControlFrame.start (.first variant)).line =
      .ok (.first variant) := by
    intro variant
    have plain : (Request.first variant).Plain :=
      ⟨null, fun entry listed => absurd listed List.not_mem_nil, show 1 < attemptBound by decide⟩
    refine Worker.readRequest_line plain ?_
    rw [ControlFrame.depth_start]
    exact show 2 ≤ maximumDepth by decide
  have nobody : ∀ call ∈ ([] : List (Nat × String)), Worker.isAbort call.2 = false :=
    fun call listed => absurd listed List.not_mem_nil
  obtain ⟨-, made⟩ := report_is_what_task_did Registry.clumsy (read "Clumsy") nobody 0 .plain rfl
  obtain ⟨unmade, -⟩ := report_is_what_task_did Registry.clumsy (read "Other") nobody 0 .plain rfl
  refine ⟨⟨_, rfl, ?_⟩, ⟨_, rfl, (unmade _ rfl).1⟩⟩
  have deeds : TaskHooks.clumsy.deeds (.ofRequest (.first "Clumsy")) =
      [⟨"on_create", [.log .info "two\nlines"], .ok⟩,
        ⟨"run", [.set "k" (.str frameMark), .print "done\r"], .failed (.ofText "broken")⟩,
        ⟨"on_failure", [.remove "old"], .ok⟩,
        ⟨"on_destroy", [], .panicked (some frameMark)⟩] := rfl
  have written : (Value.str frameMark).Plain := ⟨trivial, trivial, trivial⟩
  obtain ⟨result, lines⟩ := made .clumsy rfl _ deeds (by
    simp only [List.forall_mem_cons, List.not_mem_nil, false_implies, implies_true, and_true]
    exact ⟨rfl, ⟨⟨written, by decide⟩, ⟨by decide, by decide⟩⟩, rfl⟩)
  exact ⟨result, lines⟩

end JobGraph
