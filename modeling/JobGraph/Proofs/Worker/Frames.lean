import JobGraph.Proofs.Json.Records
import JobGraph.Worker.Frame

/-!
# Frames read back

A frame is read from its line exactly if the line nests no deeper than the reader allows, and then
it is the frame that was written: `OutputLine.decode_line` for frames from a worker, and
`ControlFrame.decode_line` for frames to one.  The values in a frame have to be plain.
-/

namespace JobGraph

open Json (Value Tree maximumDepth)

/-! ## Ends of lines -/

namespace Text

theorem dropEndWhile_append_of_not {test : Char → Bool} {last : Char} (stays : test last = false)
    (text : List Char) : dropEndWhile test (text ++ [last]) = text ++ [last] := by
  simp [dropEndWhile, stays]

theorem dropEndWhile_append_of {test : Char → Bool} {last : Char} (goes : test last = true)
    (text : List Char) : dropEndWhile test (text ++ [last]) = dropEndWhile test text := by
  simp [dropEndWhile, goes]

theorem dropEndWhile_isPrefix (test : Char → Bool) (text : List Char) :
    dropEndWhile test text <+: text := by
  rw [← List.reverse_suffix, dropEndWhile, List.reverse_reverse]
  exact List.dropWhile_suffix test

end Text

namespace Json.Value

/-- The text of an object ends with its brace. -/
theorem write_obj_eq (members : List (String × Value)) (rest : List Char) :
    (Value.obj members).write rest = '{' :: writeMembers members [] ++ ['}'] ++ rest := by
  have split := writeMembers_append [] ('}' :: rest) members
  rw [List.nil_append] at split
  simp [write, split]

end Json.Value

theorem afterMark?_append (mark rest : List Char) : afterMark? mark (mark ++ rest) = some rest := by
  induction mark with
  | nil => rfl
  | cons c mark inductionHypothesis => simp [afterMark?, inductionHypothesis]

theorem afterMark?_eq_some {mark line rest : List Char} (found : afterMark? mark line = some rest) :
    line = mark ++ rest := by
  induction mark generalizing line with
  | nil => simpa [afterMark?] using found
  | cons expected mark inductionHypothesis =>
    cases line with
    | nil => simp [afterMark?] at found
    | cons c line =>
      simp only [afterMark?] at found
      split at found
      next same => rw [same, inductionHypothesis found, List.cons_append]
      next => cases found

/-! ## Tags -/

/-- The parts of a tagged object beside its tag, if none of them has the name of the tag. -/
theorem splitTag?_tree {tag : String} {members : List (String × Value)}
    (untagged : ∀ member ∈ members, member.1 ≠ "type") :
    splitTag? (Value.obj (("type", .str tag) :: members)).tree =
      some (tag, (Value.obj members).tree) := by
  have others : ((Value.treeMembers members).filter fun member => member.1 == some "type") = [] ∧
      ((Value.treeMembers members).filter fun member => member.1 != some "type") =
        Value.treeMembers members := by
    induction members with
    | nil => exact ⟨rfl, rfl⟩
    | cons member rest inductionHypothesis =>
      obtain ⟨key, value⟩ := member
      obtain ⟨kept, left⟩ := inductionHypothesis fun member listed =>
        untagged member (List.mem_cons_of_mem _ listed)
      have other : key ≠ "type" := untagged (key, value) List.mem_cons_self
      simp [Value.treeMembers, kept, left, other]
  simp [splitTag?, Value.tree, Value.treeMembers, others]

/-- A tagged object is taken apart if it nests no deeper than the reader allows. -/
theorem frameParts?_tree (tag : String) (members : List (String × Value))
    (untagged : ∀ member ∈ members, member.1 ≠ "type") (held : Value.HeldMembers members) :
    frameParts? (Value.obj (("type", .str tag) :: members)).tree =
      if (Value.obj members).depth ≤ maximumDepth then some (tag, (Value.obj members).tree)
      else none := by
  have whole := Value.holdsWithin_tree (.obj (("type", .str tag) :: members)) maximumDepth
    ⟨trivial, held⟩
  have depth : (Value.obj (("type", .str tag) :: members)).depth = (Value.obj members).depth := by
    simp [Value.depth, Value.depthMembers]
  rw [frameParts?, whole, depth, splitTag?_tree untagged]
  by_cases fits : (Value.obj members).depth ≤ maximumDepth <;> simp [fits]

/-! ## Frames from a worker -/

namespace WorkerFrame

/-- The values in a frame can be read back. -/
def Plain : WorkerFrame → Prop
  | .storeSet _ value => value.Plain
  | _ => True

/-- How many arrays and objects a frame nests. -/
def depth (frame : WorkerFrame) : Nat := (Value.obj frame.members).depth

/-- The line of a frame without its end. -/
def line (frame : WorkerFrame) : String :=
  String.ofList (frameMark.toList ++ (Value.obj frame.members).write [])

theorem encode_eq (frame : WorkerFrame) : frame.encode = frame.line ++ "\n" := by
  have split := Value.write_append [] ['\n'] (.obj frame.members)
  rw [List.nil_append] at split
  rw [encode, line, split, ← List.append_assoc, String.ofList_append]

theorem held_members {frame : WorkerFrame} (plain : frame.Plain) :
    Value.HeldMembers frame.members := by
  cases frame with
  | storeSet key value => exact ⟨trivial, trivial, plain.held, trivial⟩
  | log severity message => exact ⟨trivial, trivial, trivial, trivial⟩
  | storeRemove key => exact ⟨trivial, trivial, trivial⟩
  | finished failed aborted => exact ⟨trivial, trivial, trivial, trivial⟩

/-- Only the value of a write can make a frame nest deeper than one object. -/
theorem depth_storeSet (key : String) (value : Value) :
    (WorkerFrame.storeSet key value).depth = value.depth + 1 := by
  simp [depth, members, Value.depth, Value.depthMembers]

/-- The tag and the fields of a frame are found if the frame is not too deep. -/
private theorem parts?_tree (tag : String) (fields : List (String × Value)) {frame : WorkerFrame}
    (same : frame.members = ("type", .str tag) :: fields)
    (untagged : ∀ field ∈ fields, field.1 ≠ "type")
    (plain : frame.Plain) :
    frameParts? (Value.obj frame.members).tree =
      if frame.depth ≤ maximumDepth then some (tag, (Value.obj fields).tree) else none := by
  have held := held_members plain
  have depth : frame.depth = (Value.obj fields).depth := by
    simp [WorkerFrame.depth, same, Value.depth, Value.depthMembers]
  rw [same] at held ⊢
  rw [frameParts?_tree tag fields untagged held.2, depth]

theorem ofTree?_tree {frame : WorkerFrame} (plain : frame.Plain) :
    WorkerFrame.ofTree? (Value.obj frame.members).tree =
      if frame.depth ≤ maximumDepth then some frame else none := by
  by_cases fits : frame.depth ≤ maximumDepth
  · cases frame with
    | log severity message =>
      have parts := parts?_tree "log"
        [("severity", .str severity.name), ("message", .str message)] rfl (by simp) plain
      have fields := Tree.fields?_tree
        [("severity", .str severity.name), ("message", .str message)] (by simp)
      simp only [List.map_cons, List.map_nil] at fields
      rw [if_pos fits] at parts ⊢
      simp [ofTree?, parts, fields, Tree.choice?, Tree.text?, Severity.ofName?_name]
    | storeSet key value =>
      have parts := parts?_tree "store_set"
        [("key", .str key), ("value", value)] rfl (by simp) plain
      have fields := Tree.fields?_tree [("key", .str key), ("value", value)] (by simp)
      have read : value.tree.value? = _ := Value.Plain.value?_tree plain
      have shallow : value.depth ≤ maximumDepth := by
        rw [depth_storeSet] at fits
        omega
      simp only [List.map_cons, List.map_nil] at fields
      rw [if_pos fits] at parts ⊢
      rw [if_pos shallow] at read
      simp [ofTree?, parts, fields, Tree.text?, read]
    | storeRemove key =>
      have parts := parts?_tree "store_remove" [("key", .str key)] rfl
        (by simp) plain
      have fields := Tree.fields?_tree [("key", .str key)] (by simp)
      simp only [List.map_cons, List.map_nil] at fields
      rw [if_pos fits] at parts ⊢
      simp [ofTree?, parts, fields, Tree.text?]
    | finished failed aborted =>
      have parts := parts?_tree "finished"
        [("failed", .bool failed), ("aborted", .bool aborted)] rfl (by simp) plain
      have fields := Tree.fields?_tree
        [("failed", .bool failed), ("aborted", .bool aborted)] (by simp)
      simp only [List.map_cons, List.map_nil] at fields
      rw [if_pos fits] at parts ⊢
      simp [ofTree?, parts, fields, Tree.flag?]
  · -- A frame that nests too deep is refused before its fields are looked at.
    have refused : frameParts? (Value.obj frame.members).tree = none := by
      cases frame with
      | _ => exact (parts?_tree _ _ rfl (by simp) plain).trans (if_neg fits)
    rw [if_neg fits, ofTree?, refused]
    rfl

/-- A frame ends with a brace, so nothing is cut off the end of its line. -/
theorem dropEndWhile_line {test : Char → Bool} (stays : test '}' = false) (frame : WorkerFrame) :
    Text.dropEndWhile test frame.line.toList =
      frameMark.toList ++ (Value.obj frame.members).write [] := by
  rw [line, String.toList_ofList, Value.write_obj_eq, List.append_nil, ← List.append_assoc,
    Text.dropEndWhile_append_of_not stays]

end WorkerFrame

/-- A line with a frame is read as that frame exactly if it nests no deeper than the reader
allows. -/
theorem OutputLine.decode_line (frame : WorkerFrame) (plain : frame.Plain) :
    OutputLine.decode frame.line =
      if frame.depth ≤ maximumDepth then .ok (.frame frame)
      else .error (.protocol .workerFrame) := by
  have read := Value.read?_write (.obj frame.members) (WorkerFrame.held_members plain)
  have kept : Text.dropEndWhile (fun c => decide (c = '\r') || decide (c = '\n'))
      frame.line.toList = frameMark.toList ++ (Value.obj frame.members).write [] :=
    WorkerFrame.dropEndWhile_line rfl frame
  unfold OutputLine.decode
  rw [content, kept, String.toList_ofList, afterMark?_append]
  dsimp only
  rw [read, Option.bind_some, WorkerFrame.ofTree?_tree plain]
  by_cases fits : frame.depth ≤ maximumDepth <;> simp [fits]

/-- A line is read by its content. -/
theorem OutputLine.decode_congr {first second : String} (same : content first = content second) :
    decode first = decode second := by
  rw [decode, decode, same]

/-- The end of the line makes no difference. -/
theorem OutputLine.decode_encode (frame : WorkerFrame) :
    OutputLine.decode frame.encode = OutputLine.decode frame.line := by
  refine decode_congr ?_
  rw [WorkerFrame.encode_eq, content, String.toList_append]
  exact congrArg String.ofList (Text.dropEndWhile_append_of rfl _)

/-! ## Frames to a worker -/

namespace Request

/-- The values in a request can be read back, and its attempt is counted in the bits there are. -/
structure Plain (request : Request) : Prop where
  parameters : request.parameters.Plain
  store : request.store.Plain
  attempt : request.attempt < attemptBound

theorem Plain.held {request : Request} (plain : request.Plain) :
    Value.HeldMembers request.members := by
  have attempt : Value.minimumInt ≤ request.attempt ∧ request.attempt ≤ Value.maximumInt := by
    have bound : request.attempt < 2 ^ 32 := plain.attempt
    have low : Value.minimumInt = -2 ^ 63 := rfl
    have high : Value.maximumInt = 2 ^ 64 - 1 := rfl
    omega
  exact ⟨trivial, trivial, plain.parameters.held, Value.held_ofNames _, attempt, trivial,
    Value.held_ofMap plain.store, trivial⟩

/-- How many arrays and objects the frame of a request nests. -/
theorem depth_members (request : Request) :
    (Value.obj request.members).depth =
      max request.parameters.depth (Value.depthMembers request.store.entries + 1) + 1 := by
  have map : (Value.ofMap request.store).depth = Value.depthMembers request.store.entries + 1 := rfl
  simp [members, Value.depth, Value.depthMembers, Value.depth_ofNames, map]

theorem ofTree?_tree {request : Request} (plain : request.Plain)
    (fits : (Value.obj request.members).depth ≤ maximumDepth) :
    Request.ofTree? (Value.obj request.members).tree = some request := by
  rw [depth_members] at fits
  have fields := Tree.fields?_tree request.members (by simp [members])
  simp only [members, List.map_cons, List.map_nil] at fields
  have parameters := plain.parameters.value?_tree
  rw [if_pos (by omega)] at parameters
  have store := Tree.map?_tree plain.store maximumDepth
  rw [if_pos (by omega)] at store
  have store' : (Value.ofMap request.store).tree.map? Tree.value? = some request.store := store
  have attempt :
      (Value.int request.attempt).tree.natBelow? attemptBound = some request.attempt := by
    have value := Json.Numeral.value?_ofInt plain.held.2.2.2.2.1.1 plain.held.2.2.2.2.1.2
    simp [Tree.natBelow?, value, plain.attempt]
  simp only [Value.tree_int] at attempt
  simp [Request.ofTree?, members, fields, parameters, store', attempt, Tree.text?, Tree.flag?,
    Tree.list?_tree]

end Request

namespace ControlFrame

/-- The request in a frame can be read back. -/
def Plain : ControlFrame → Prop
  | .start request => request.Plain
  | .abort => True

/-- How many arrays and objects a frame nests. -/
def depth (frame : ControlFrame) : Nat := (Value.obj frame.members).depth

/-- The line of a frame without its end. -/
def line (frame : ControlFrame) : String := String.ofList ((Value.obj frame.members).write [])

theorem encode_eq (frame : ControlFrame) : frame.encode = frame.line ++ "\n" := by
  have split := Value.write_append [] ['\n'] (.obj frame.members)
  rw [List.nil_append] at split
  rw [encode, line, split, String.ofList_append]

theorem held_members {frame : ControlFrame} (plain : frame.Plain) :
    Value.HeldMembers frame.members := by
  cases frame with
  | start request => exact ⟨trivial, plain.held⟩
  | abort => exact ⟨trivial, trivial⟩

theorem depth_start (request : Request) :
    (ControlFrame.start request).depth =
      max request.parameters.depth (Value.depthMembers request.store.entries + 1) + 1 := by
  rw [← request.depth_members]
  simp [depth, members, Value.depth, Value.depthMembers]

theorem ofTree?_tree {frame : ControlFrame} (plain : frame.Plain) :
    ControlFrame.ofTree? (Value.obj frame.members).tree =
      if frame.depth ≤ maximumDepth then some frame else none := by
  cases frame with
  | start request =>
    have parts := frameParts?_tree "start" request.members
      (by simp [Request.members]) plain.held
    have same : (ControlFrame.start request).depth = (Value.obj request.members).depth := by
      rw [depth_start, request.depth_members]
    rw [ofTree?, members, parts, same]
    by_cases fits : (Value.obj request.members).depth ≤ maximumDepth
    · simp [fits, Request.ofTree?_tree plain fits]
    · simp [fits]
  | abort =>
    have parts := frameParts?_tree "abort" [] (by simp) trivial
    rw [ofTree?, members, parts]
    rfl

/-- A line with a frame is read as that frame exactly if it nests no deeper than the reader
allows. -/
theorem decode_line (frame : ControlFrame) (plain : frame.Plain) :
    ControlFrame.decode frame.line =
      if frame.depth ≤ maximumDepth then .ok frame else .error (.protocol .controlFrame) := by
  have read := Value.read?_write (.obj frame.members) (held_members plain)
  have content : Text.dropEndWhile Text.isBlank frame.line.toList =
      (Value.obj frame.members).write [] := by
    rw [line, String.toList_ofList, Value.write_obj_eq, List.append_nil,
      Text.dropEndWhile_append_of_not (by decide)]
  unfold ControlFrame.decode
  rw [content, read, Option.bind_some, ofTree?_tree plain]
  by_cases fits : frame.depth ≤ maximumDepth <;> simp [fits]

/-- The end of the line makes no difference. -/
theorem decode_encode (frame : ControlFrame) :
    ControlFrame.decode frame.encode = ControlFrame.decode frame.line := by
  have same : Text.dropEndWhile Text.isBlank (frame.line ++ "\n").toList =
      Text.dropEndWhile Text.isBlank frame.line.toList := by
    rw [String.toList_append]
    exact Text.dropEndWhile_append_of (by decide) _
  rw [encode_eq, ControlFrame.decode, ControlFrame.decode, same]

end ControlFrame

end JobGraph
