import JobGraph.Error
import JobGraph.Json.Decode
import JobGraph.Json.Printer
import JobGraph.Run.Store
import JobGraph.Task.Severity
import JobGraph.Text.Blank

/-!
# Frames

A run talks with a worker in frames, one line each.  Control frames go to the worker: a request for
an attempt, or a call to abort it.  Worker frames come back between lines of plain output; a mark
at the start of the line tells them apart.

* `ControlFrame.encode`, `ControlFrame.decode`: lines to a worker.
* `WorkerFrame.encode`, `OutputLine.decode`: lines from a worker.
-/

namespace JobGraph

/-- Everything that a worker needs for one attempt at a task. -/
structure Request where
  name : String
  variant : String
  parameters : Json.Value
  dependsOn : List String
  attempt : Nat
  isRestart : Bool
  store : Store
  deriving DecidableEq, Repr

/-- A message to a worker. -/
inductive ControlFrame where
  | start (request : Request)
  | abort
  deriving DecidableEq, Repr

/-- A message from a worker. -/
inductive WorkerFrame where
  | log (severity : Severity) (message : String)
  | storeSet (key : String) (value : Json.Value)
  | storeRemove (key : String)
  | finished (failed aborted : Bool)
  deriving DecidableEq, Repr

/-- A line of a worker's output. -/
inductive OutputLine where
  | frame (frame : WorkerFrame)
  | text (line : String)
  deriving DecidableEq, Repr

/-- What stands at the start of a line that holds a worker frame. -/
def frameMark : String := "\x1edagrun:"

/-- The attempts of a task are counted in thirty-two bits. -/
def attemptBound : Nat := twoTo 32

/-- The write to the shared store that a frame carries. -/
def WorkerFrame.write? : WorkerFrame → Option StoreWrite
  | .storeSet key value => some (.set key value)
  | .storeRemove key => some (.remove key)
  | _ => none

/-! ## Writing -/

open Json (Value Tree)

/-- The fields of a request in the order in which they are written. -/
def Request.members (request : Request) : List (String × Value) :=
  [("name", .str request.name), ("variant", .str request.variant),
    ("parameters", request.parameters), ("depends_on", Value.ofNames request.dependsOn),
    ("attempt", .int request.attempt), ("is_restart", .bool request.isRestart),
    ("store", Value.ofMap request.store)]

def ControlFrame.members : ControlFrame → List (String × Value)
  | .start request => ("type", .str "start") :: request.members
  | .abort => [("type", .str "abort")]

def WorkerFrame.members : WorkerFrame → List (String × Value)
  | .log severity message =>
    [("type", .str "log"), ("severity", .str severity.name), ("message", .str message)]
  | .storeSet key value => [("type", .str "store_set"), ("key", .str key), ("value", value)]
  | .storeRemove key => [("type", .str "store_remove"), ("key", .str key)]
  | .finished failed aborted =>
    [("type", .str "finished"), ("failed", .bool failed), ("aborted", .bool aborted)]

/-- The line of a control frame, with the end of the line. -/
def ControlFrame.encode (frame : ControlFrame) : String :=
  String.ofList ((Value.obj frame.members).write ['\n'])

/-- The line of a worker frame, with its mark and the end of the line. -/
def WorkerFrame.encode (frame : WorkerFrame) : String :=
  String.ofList (frameMark.toList ++ (Value.obj frame.members).write ['\n'])

/-! ## Reading -/

/-- The tag of a frame and the tree of its other parts: in an object the tag stands under `type`,
exactly once, and in an array it comes first. -/
def splitTag? : Tree → Option (String × Tree)
  | .obj members =>
    match members.filter fun member => member.1 == some "type" with
    | [(_, .str (some tag))] =>
      some (tag, .obj (members.filter fun member => member.1 != some "type"))
    | _ => none
  | .arr (.str (some tag) :: items) => some (tag, .arr items)
  | _ => none

/-- The tag and the parts of a frame.  The frame is held as a whole before it is taken apart. -/
def frameParts? (tree : Tree) : Option (String × Tree) :=
  if tree.holdsWithin Json.maximumDepth then splitTag? tree else none

def Request.ofTree? (tree : Tree) : Option Request := do
  let fields ← tree.fields?
    ["name", "variant", "parameters", "depends_on", "attempt", "is_restart", "store"]
  match fields with
  | [some name, some variant, parameters, dependsOn, some attempt, some isRestart, store] =>
    return {
      name := ← name.text?
      variant := ← variant.text?
      parameters := ← parameters.elim (some .null) Tree.value?
      dependsOn := ← dependsOn.elim (some []) (Tree.list? Tree.text?)
      attempt := ← attempt.natBelow? attemptBound
      isRestart := ← isRestart.flag?
      store := ← store.elim (some .empty) (Tree.map? Tree.value?) }
  | _ => none

/-- Nothing but passed-over members is left of a frame without fields. -/
def isBareFrame : Tree → Bool
  | .obj _ => true
  | .arr items => items.isEmpty
  | _ => false

def ControlFrame.ofTree? (tree : Tree) : Option ControlFrame := do
  let (tag, parts) ← frameParts? tree
  match tag with
  | "start" => (Request.ofTree? parts).map .start
  | "abort" => if isBareFrame parts then some .abort else none
  | _ => none

def WorkerFrame.ofTree? (tree : Tree) : Option WorkerFrame := do
  let (tag, parts) ← frameParts? tree
  match tag with
  | "log" =>
    match ← parts.fields? ["severity", "message"] with
    | [some severity, some message] =>
      return .log (← severity.choice? Severity.ofName?) (← message.text?)
    | _ => none
  | "store_set" =>
    match ← parts.fields? ["key", "value"] with
    | [some key, some value] => return .storeSet (← key.text?) (← value.value?)
    | _ => none
  | "store_remove" =>
    match ← parts.fields? ["key"] with
    | [some key] => return .storeRemove (← key.text?)
    | _ => none
  | "finished" =>
    match ← parts.fields? ["failed", "aborted"] with
    | [some failed, some aborted] => return .finished (← failed.flag?) (← aborted.flag?)
    | _ => none
  | _ => none

/-- Reads a line to a worker; blanks at its end do not count. -/
def ControlFrame.decode (line : String) : Except Error ControlFrame :=
  match (Tree.read? (Text.dropEndWhile Text.isBlank line.toList)).bind ofTree? with
  | some frame => .ok frame
  | none => .error (.protocol .controlFrame)

/-- What follows the mark at the start of a line, if the line has the mark. -/
def afterMark? : (mark line : List Char) → Option (List Char)
  | [], rest => some rest
  | _ :: _, [] => none
  | expected :: mark, c :: rest => if expected = c then afterMark? mark rest else none

/-- A line without the ends of lines that follow it. -/
def OutputLine.content (line : String) : String :=
  String.ofList (Text.dropEndWhile (fun c => c = '\r' || c = '\n') line.toList)

/-- Reads a line from a worker. -/
def OutputLine.decode (line : String) : Except Error OutputLine :=
  match afterMark? frameMark.toList (content line).toList with
  | none => .ok (.text (content line))
  | some body =>
    match (Tree.read? body).bind WorkerFrame.ofTree? with
    | some read => .ok (.frame read)
    | none => .error (.protocol .workerFrame)

end JobGraph
