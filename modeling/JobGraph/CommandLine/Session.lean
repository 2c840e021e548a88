import JobGraph.Checkpoint.Keeper
import JobGraph.Checkpoint.Restore
import JobGraph.CommandLine.Arguments
import JobGraph.CommandLine.Complaint
import JobGraph.CommandLine.Overview
import JobGraph.Rehearsal.Record
import JobGraph.Worker.Process

/-!
# Sessions

A session is one call of the program: what it finds around it, the words it is called with, and
what it leaves behind.  A job is loaded, its variants are checked and the part to run is selected,
each of which may end the session.  Then a dry run shows the overview, and any other run begins,
anew or where the last checkpoint stands, and keeps its checkpoints in the directory of the job
file.
-/

namespace JobGraph

/-- What the program finds around it. -/
structure Surroundings where
  files : FileTree
  /-- The level of the log that is set from outside. -/
  logSetting : Option String
  /-- The lines on the input, each with the moment at which it arrives. -/
  input : List (Nat × String)
  /-- A file some time after whose appearance the program is told to end. -/
  watched : Option String
  /-- What the clock shows. -/
  now : Timestamp
  deriving Repr

/-- What the program leaves behind. -/
structure SessionEnd where
  exit : Nat
  output : String
  /-- The text with which it gave up. -/
  complaint : Option String
  /-- The lines of the log that are shown. -/
  log : List LogLine
  files : FileTree
  deriving Repr

/-- A job with how much of it is to run. -/
structure Assignment where
  job : Job
  /-- How many tasks may run at once; none for no limit. -/
  limit : Nat
  skipped : NameSet
  deriving Repr

namespace Session

/-- The exit code of a session that gave up. -/
def complaintExit : Nat := 255

/-- The greatest exit code that counts failures. -/
def maximumExit : Nat := 254

/-- The exit code of a session that broke off without a word of its own. -/
def brokenExit : Nat := 101

/-! ## Files -/

/-- Whether a path leads out of the tree: from its top, or by more steps up than down. -/
def isOutside (path : String) : Bool :=
  let depths := (FileTree.parts path).foldl (fun (depth, low) part =>
    let next : Int := if part = ".." then depth - 1 else if part = "." then depth else depth + 1
    (next, min low next)) ((0 : Int), (0 : Int))
  path.startsWith "/" || depths.2 < 0

/-- The content of a file; a path that leads out of the tree leads to nothing. -/
def readFile (files : FileTree) (path : String) : Except FileProblem (List UInt8) :=
  if isOutside path then .error .notFound else files.read (FileTree.partsWithEnd path)

/-- The keeper of the checkpoint of a job: its directory lies beside the job file.  A directory out
of the tree keeps nothing. -/
def keeper? (jobFile : String) (settings : Settings) : Option FileKeeper :=
  let beside := FileTree.parent (FileTree.parts jobFile)
  let place := String.intercalate "/" (beside ++ [settings.checkpointDirectory])
  if settings.checkpointDirectory.startsWith "/" || isOutside place then none
  else some ⟨FileTree.parts place, settings.name⟩

def presentFiles (files : FileTree) : List String :=
  files.entries.map fun entry => String.intercalate "/" entry.1

/-- Adds an empty file, unless it cannot be made. -/
def addFile (files : FileTree) (name : String) : FileTree :=
  (files.truncate (FileTree.partsWithEnd name)).toOption.getD files

/-! ## Before the run -/

def loadJob (files : FileTree) (jobFile : String) : Except Failure Job :=
  let job := ((readFile files jobFile).mapError Error.file).bind Job.ofBytes
  job.mapError fun error => error.failure.within ("loading job definition " ++ jobFile)

/-- The job of the job file, checked, with the part of it to run. -/
def assign (files : FileTree) (arguments : Arguments) : Except Failure Assignment := do
  let job ← loadJob files arguments.jobFile
  (Work.registry.checkVariants job.graph).mapError Error.failure
  let skipped ← (arguments.selection.skipped job.graph).mapError Error.failure
  return ⟨job, arguments.maxConcurrency.getD job.settings.maxConcurrency, skipped⟩

/-- How the tasks start out where the last checkpoint stands; all anew if there is none. -/
def resume (files : FileTree) (keeper : Option FileKeeper) (graph : Graph) :
    Except Failure RestorePlan :=
  match keeper with
  | none => .ok ⟨.empty, .empty⟩
  | some keeper =>
    match keeper.read files keeper.name with
    | .ok snapshot => (snapshot.plan graph).mapError Error.failure
    | .error (.noCheckpoint _) => .ok ⟨.empty, .empty⟩
    | .error error => .error (error.failure.within "reading checkpoint")

def plan (files : FileTree) (arguments : Arguments) (assignment : Assignment) :
    Except Failure RestorePlan := do
  let job := assignment.job
  let found : RestorePlan ←
    if arguments.restart then resume files (keeper? arguments.jobFile job.settings) job.graph
    else pure ⟨.empty, .empty⟩
  return { found with seeds := found.seeds.overlaySkipped assignment.skipped }

/-! ## The run -/

def rehearse (around : Surroundings) (assignment : Assignment) (plan : RestorePlan) : Rehearsal :=
  let settings := assignment.job.settings
  let interval := settings.checkpointEvery.nanoseconds
  let setting : Setting :=
    ⟨Executable.worker.launcher settings.grace.nanoseconds, interval, fun _ => true, true⟩
  let run := Run.start assignment.job.graph assignment.limit plan.seeds plan.store false true
    (interval ≠ 0) none
  let present := presentFiles around.files
  let undisturbed := Rehearsal.play setting run none present
  match around.watched.bind undisturbed.since? with
  | some moment => Rehearsal.play setting run (some (moment + Worker.signalDelay)) present
  | none => undisturbed

/-- Keeps the checkpoints that a run wrote, in order, and clears the last one after a clean run.
A checkpoint that cannot be kept is passed over. -/
def keepCheckpoints (keeper : FileKeeper) (now : Timestamp) (run : Run) (files : FileTree) :
    FileTree :=
  let written :=
    run.writes.foldl (fun files write => (keeper.write files now write.snapshot).1) files
  if run.final? = some .cleared then (keeper.clear written).1 else written

/-- The level of the log: that of the arguments, else the one set from outside. -/
def logLevel (around : Surroundings) (arguments : Arguments) : LogLevel :=
  (arguments.logLevel <|> around.logSetting.bind LogLevel.ofSetting?).getD .info

def conclude (around : Surroundings) (arguments : Arguments) (settings : Settings)
    (rehearsal : Rehearsal) : SessionEnd :=
  let known := presentFiles around.files
  let made := (rehearsal.files.map Prod.fst).filter fun file => !known.contains file
  let files := made.foldl addFile around.files
  { exit := min rehearsal.run.exitCode maximumExit
    output := ""
    complaint := none
    log := (rehearsal.lines.map Prod.snd).filter (logLevel around arguments).shows
    files :=
      match keeper? arguments.jobFile settings with
      | some keeper => keepCheckpoints keeper around.now rehearsal.run files
      | none => files }

/-! ## Sessions -/

def quiet (around : Surroundings) (exit : Nat) (output : String) : SessionEnd :=
  ⟨exit, output, none, [], around.files⟩

/-- A session that makes one attempt for another one. -/
def serve (around : Surroundings) : SessionEnd :=
  let worker :=
    match around.watched with
    | some file => Worker.serveWatched (presentFiles around.files) around.input file
    | none => Worker.serve (presentFiles around.files) around.input none
  { quiet around worker.exit worker.output with
    files := (worker.files.map Prod.snd).foldl addFile around.files }

def carryOut (around : Surroundings) (arguments : Arguments) : Except Failure SessionEnd := do
  let assignment ← assign around.files arguments
  if arguments.dryRun then
    let lines := assignment.job.overview assignment.limit assignment.skipped
    return quiet around 0 (String.join (lines.map fun line => line ++ "\n"))
  let plan ← plan around.files arguments assignment
  if Gate.maximumLimit < assignment.limit then return quiet around brokenExit ""
  return conclude around arguments assignment.job.settings (rehearse around assignment plan)

/-- What a session leaves behind that is called with words. -/
def run (around : Surroundings) (words : List String) : SessionEnd :=
  match Arguments.read words with
  | .error problem => quiet around problem.exitCode problem.output
  | .ok arguments =>
    if arguments.worker then serve around
    else
      match carryOut around arguments with
      | .ok left => left
      | .error failure =>
        { quiet around complaintExit "" with complaint := some failure.complaint }

end Session

end JobGraph
