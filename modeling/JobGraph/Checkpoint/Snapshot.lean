import JobGraph.Calendar.Timestamp
import JobGraph.Digest.Blake3
import JobGraph.Error
import JobGraph.Json.Decode
import JobGraph.Json.Printer
import JobGraph.Run.StateMap
import JobGraph.Run.Store
import JobGraph.Text.Bytes

/-!
# Checkpoints as text

A snapshot is the progress of a run: the states of its tasks and the shared store.  `encode` wraps
its compact text in an envelope with the name and version of the format and with a digest of that
very text; `decode` refuses an envelope whose digest does not fit the text it holds.
-/

namespace JobGraph

open Json (Value Tree)

/-- The progress of a run. -/
structure Snapshot where
  states : StateMap
  store : Store
  deriving DecidableEq, Repr

namespace StateMap

/-- The sets that a map has, in the order of states. -/
def toValue (map : StateMap) : Value :=
  .obj (TaskState.all.filterMap fun state =>
    (map.get? state).map fun names => (state.name, Value.ofNames names.toList))

/-- Adds the set of one member to a map; a later set for the same state takes its place. -/
def addMember (map : StateMap) (member : Option String × Tree) : Option StateMap := do
  let state ← TaskState.ofName? (← member.1)
  let names ← member.2.list? Tree.text?
  return map.set state (NameSet.ofList names)

/-- Reads the sets of a map from an object. -/
def setsOfTree? : Tree → Option StateMap
  | .obj members => members.foldlM addMember bare
  | _ => none

/-- Reads a map from a record with its sets. -/
def ofTree? (tree : Tree) : Option StateMap := do
  match ← tree.fields? ["states"] with
  | [some sets] => setsOfTree? sets
  | _ => none

end StateMap

namespace Snapshot

instance : Inhabited Snapshot := ⟨⟨.empty, .empty⟩⟩

def toValue (snapshot : Snapshot) : Value :=
  .obj [("states", .obj [("states", snapshot.states.toValue)]),
    ("store", Value.ofMap snapshot.store)]

def text (snapshot : Snapshot) : String := snapshot.toValue.compact

/-- Reads a snapshot; its store lies below two objects, so its values may nest that much less. -/
def ofTree? (tree : Tree) : Option Snapshot := do
  match ← tree.fields? ["states", "store"] with
  | [some states, store] =>
    return {
      states := ← StateMap.ofTree? states
      store := ← store.elim (some .empty)
        (Tree.map? (Tree.valueWithin? (Json.maximumDepth - 2))) }
  | _ => none

def ofText? (text : List Char) : Option Snapshot := (Tree.read? text).bind ofTree?

end Snapshot

namespace Checkpoint

def format : String := "dagrun-checkpoint"

def version : Nat := 1

/-- One line of the envelope: a name and the text of its value. -/
def envelopeLine (name : String) (value : List Char) (rest : List Char) : List Char :=
  '\n' :: ' ' :: ' ' :: Json.writeString name (':' :: ' ' :: (value ++ rest))

/-- The text of an envelope around the text of a snapshot. -/
def envelope (writtenAt : Timestamp) (snapshot : String) : List Char :=
  '{' :: envelopeLine "format" (Json.writeString format [])
    (',' :: envelopeLine "version" (digitChars version)
      (',' :: envelopeLine "written_at" (Json.writeString (String.ofList writtenAt.write) [])
        (',' :: envelopeLine "digest" (Json.writeString (Blake3.hexDigest snapshot) [])
          (',' :: envelopeLine "snapshot" snapshot.toList ['\n', '}']))))

def encode (writtenAt : Timestamp) (snapshot : Snapshot) : String :=
  String.ofList (envelope writtenAt snapshot.text)

/-- The parts of an envelope; the snapshot is kept as the text that stands in it. -/
structure Envelope where
  format : String
  version : Nat
  digest : String
  snapshot : List Char
  deriving DecidableEq, Repr

/-- The names of the fields of an envelope, in their order. -/
def fieldNames : List String := ["format", "version", "written_at", "digest", "snapshot"]

/-- The fields of an envelope, each by its text. -/
def envelopeFields? (text : List Char) : Option (List (Option (List Char))) :=
  match Json.splitMembers? text with
  | some members => Tree.fieldsOfMembers? fieldNames members
  | none =>
    match Json.splitItems? text with
    | some items => Tree.fieldsOfItems? fieldNames items
    | none => none

def readEnvelope? (text : List Char) : Option Envelope := do
  match ← envelopeFields? text with
  | [some format, some version, some writtenAt, some digest, some snapshot] =>
    let writtenAt ← (Tree.read? writtenAt).bind Tree.text?
    if Timestamp.isTimestamp writtenAt.toList then
      return {
        format := ← (Tree.read? format).bind Tree.text?
        version := ← (Tree.read? version).bind (Tree.natBelow? (twoTo 32))
        digest := ← (Tree.read? digest).bind Tree.text?
        snapshot := snapshot }
    else none
  | _ => none

/-- Reads the snapshot of a checkpoint, or says why the text is refused. -/
def decode (text : String) : Except Error Snapshot :=
  match readEnvelope? text.toList with
  | none => .error (.checkpointCorrupt .envelope)
  | some envelope =>
    if envelope.format ≠ format then .error (.checkpointCorrupt (.format envelope.format))
    else if envelope.version ≠ version then
      .error (.checkpointCorrupt (.version envelope.version))
    else if Blake3.hexDigest (String.ofList envelope.snapshot) ≠ envelope.digest then
      .error (.checkpointCorrupt .digest)
    else
      match Snapshot.ofText? envelope.snapshot with
      | some snapshot => .ok snapshot
      | none => .error (.checkpointCorrupt .snapshot)

/-- The text of the bytes of a checkpoint.  The values of members that an envelope does not have are
passed over byte by byte, so if the bytes are no text because of them, they are left out. -/
def textOf? (bytes : List UInt8) : Option String :=
  (Text.decodeUtf8? bytes).or
    ((Json.keepMembers? fieldNames (Text.octets bytes)).bind fun text =>
      Text.decodeUtf8? (Text.ofOctets text))

/-- Reads the snapshot of the bytes of a checkpoint; bytes without a text hold no envelope. -/
def decodeBytes (bytes : List UInt8) : Except Error Snapshot :=
  match textOf? bytes with
  | some text => decode text
  | none => .error (.checkpointCorrupt .envelope)

end Checkpoint

end JobGraph
