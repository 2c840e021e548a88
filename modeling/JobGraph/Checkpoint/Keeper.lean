import JobGraph.Checkpoint.FileTree
import JobGraph.Checkpoint.Snapshot

/-!
# Keeping a checkpoint

A checkpoint is kept in a file of a directory or in a slot in memory.  A file is never changed in
place: `FileKeeper.write` fills a temporary file and then gives it the name of the checkpoint, so
that a reader sees the old checkpoint or the new one.  `FileStep` is one of its steps, each of which
may be the last that happens.
-/

namespace JobGraph

/-- Where a checkpoint is kept: a directory by the parts of its path, and a name. -/
structure FileKeeper where
  directory : List String
  name : String
  deriving DecidableEq, Repr

/-- One step of an operation on files. -/
inductive FileStep where
  | makeDirectories (path : List String)
  | truncate (path : List String)
  | append (path : List String) (bytes : List UInt8)
  | rename (source target : List String)
  deriving DecidableEq, Repr

/-- Carries out a step: the tree it leaves behind, and what the failure was. -/
def FileStep.run (tree : FileTree) : FileStep → FileTree × Option FileProblem
  | .makeDirectories path => tree.makeDirectories path
  | .truncate path => tree.after (tree.truncate path)
  | .append path bytes => tree.after (tree.append path bytes)
  | .rename source target => tree.after (tree.rename source target)

/-- Carries out steps in order up to the first that fails. -/
def FileStep.runAll (tree : FileTree) : List FileStep → FileTree × Option FileProblem
  | [] => (tree, none)
  | step :: rest =>
    match step.run tree with
    | (next, none) => runAll next rest
    | (left, some problem) => (left, some problem)

namespace FileKeeper

/-- The name of the temporary file. -/
def temporaryName (keeper : FileKeeper) : String := keeper.name ++ ".tmp"

def path (keeper : FileKeeper) : List String :=
  keeper.directory ++ FileTree.partsWithEnd keeper.name
    ++ if keeper.name = "" then [""] else []

def temporaryPath (keeper : FileKeeper) : List String :=
  keeper.directory ++ FileTree.partsWithEnd keeper.temporaryName

def writeSteps (keeper : FileKeeper) (bytes : List UInt8) : List FileStep :=
  [.makeDirectories (FileTree.parent keeper.path), .truncate keeper.temporaryPath,
    .append keeper.temporaryPath bytes, .rename keeper.temporaryPath keeper.path]

def write (keeper : FileKeeper) (tree : FileTree) (writtenAt : Timestamp) (snapshot : Snapshot) :
    FileTree × Except Error Unit :=
  let bytes := Text.encodeUtf8 (Checkpoint.encode writtenAt snapshot)
  match FileStep.runAll tree (keeper.writeSteps bytes) with
  | (tree, none) => (tree, .ok ())
  | (tree, some problem) => (tree, .error (.file problem))

/-- Reads the checkpoint; `location` is what a message calls its place. -/
def read (keeper : FileKeeper) (tree : FileTree) (location : String) : Except Error Snapshot :=
  match tree.read keeper.path with
  | .ok bytes => Checkpoint.decodeBytes bytes
  | .error .notFound => .error (.noCheckpoint location)
  | .error problem => .error (.file problem)

/-- Removes files up to the first that cannot be removed; a missing file is no problem. -/
def removeAll (tree : FileTree) : List (List String) → FileTree × Except Error Unit
  | [] => (tree, .ok ())
  | path :: rest =>
    match tree.removeFile path with
    | .ok tree => removeAll tree rest
    | .error .notFound => removeAll tree rest
    | .error problem => (tree, .error (.file problem))

def clear (keeper : FileKeeper) (tree : FileTree) : FileTree × Except Error Unit :=
  removeAll tree [keeper.path, keeper.temporaryPath]

def exists? (keeper : FileKeeper) (tree : FileTree) : Bool := tree.isFile keeper.path

end FileKeeper

/-- A slot in memory for the bytes of a checkpoint, with the number of writes so far. -/
structure SlotKeeper where
  slot : Option (List UInt8)
  writes : Nat
  deriving DecidableEq, Repr

namespace SlotKeeper

def empty : SlotKeeper := ⟨none, 0⟩

/-- A slot with the checkpoint that an earlier run left. -/
def ofSnapshot (writtenAt : Timestamp) (snapshot : Snapshot) : SlotKeeper :=
  ⟨some (Text.encodeUtf8 (Checkpoint.encode writtenAt snapshot)), 0⟩

/-- What messages call the place of a checkpoint in memory. -/
def location : String := "<memory>"

def write (keeper : SlotKeeper) (writtenAt : Timestamp) (snapshot : Snapshot) : SlotKeeper :=
  ⟨some (Text.encodeUtf8 (Checkpoint.encode writtenAt snapshot)), keeper.writes + 1⟩

def read (keeper : SlotKeeper) : Except Error Snapshot :=
  match keeper.slot with
  | some bytes => Checkpoint.decodeBytes bytes
  | none => .error (.noCheckpoint location)

def clear (keeper : SlotKeeper) : SlotKeeper := { keeper with slot := none }

def isEmpty (keeper : SlotKeeper) : Bool := keeper.slot.isNone

end SlotKeeper

/-- What becomes of the checkpoint when a run ends. -/
inductive FinalCheckpoint where
  | cleared
  | written
  deriving DecidableEq, Repr

/-- A run with failures keeps a checkpoint of its end; a clean run leaves none. -/
def FinalCheckpoint.ofStates (states : StateMap) : FinalCheckpoint :=
  if states.hasFailures then .written else .cleared

end JobGraph
