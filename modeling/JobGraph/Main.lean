import JobGraph.CommandLine.Session

/-!
# The program

The outer layer of the program: it brings in the files that a session may look at, holds the
session, and carries out what the session leaves behind.
-/

namespace JobGraph.Main

def addFile (files : FileTree) (path : String) : IO FileTree := do
  try
    let content ← IO.FS.readBinFile path
    return files.withFile (FileTree.partsWithEnd path) content.toList
  catch _ => return files

/-- The files that a session with some words may look at. -/
def bringFiles (words : List String) : IO FileTree := do
  match Arguments.read words with
  | .error _ => return .empty
  | .ok arguments =>
    let files ← addFile .empty arguments.jobFile
    match Session.loadJob files arguments.jobFile with
    | .error _ => return files
    | .ok job =>
      match Session.keeper? arguments.jobFile job.settings with
      | none => return files
      | some keeper => addFile files (String.intercalate "/" keeper.path)

/-- What the clock shows, which is when a new file was changed last. -/
def now : IO Timestamp := do
  let (_, path) ← IO.FS.createTempFile
  let changed := (← path.metadata).modified
  IO.FS.removeFile path
  return .ofSeconds changed.sec changed.nsec.toNat

/-- Carries out on the disk what a session changed. -/
def keepFiles (before after : FileTree) : IO Unit := do
  for (place, entry) in after.entries do
    if before.lookup place ≠ some entry then
      let path := String.intercalate "/" place
      match entry with
      | .directory => IO.FS.createDirAll path
      | .file content => IO.FS.writeBinFile path ⟨content.toArray⟩
  for (place, entry) in before.entries do
    if entry ≠ .directory && (after.lookup place).isNone then
      IO.FS.removeFile (String.intercalate "/" place)

/-- Holds a session; one that makes an attempt for another gets its request on the input. -/
def hold (words : List String) : IO UInt32 := do
  let files ← bringFiles words
  let isWorker := (Arguments.read words).toOption.any Arguments.worker
  let input ← if isWorker then (← IO.getStdin).getLine else pure ""
  let left := Session.run ⟨files, ← IO.getEnv "DAGRUN_LOG", [(0, input)], none, ← now⟩ words
  IO.print left.output
  for line in left.log do
    IO.eprintln line.text
  if let some complaint := left.complaint then
    IO.eprintln ("dagrun error: " ++ complaint)
  keepFiles files left.files
  return UInt32.ofNat left.exit

end JobGraph.Main

def main (words : List String) : IO UInt32 := JobGraph.Main.hold words
