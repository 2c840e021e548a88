import JobGraph.CommandLine.LogLevel
import JobGraph.Graph.Selection
import JobGraph.Json.Tree

/-!
# Arguments

What the words after the program's name ask for.  An option with a value takes the rest of its word
or the next word; its value is looked at when the next option comes, or at the end.  A word that is
neither an option nor the value of one has to be a command.
-/

namespace JobGraph

/-- What the program is asked for. -/
structure Arguments where
  jobFile : String
  restart : Bool
  maxConcurrency : Option Nat
  skip : List String
  runTo : Option String
  runFrom : Option String
  logLevel : Option LogLevel
  dryRun : Bool
  /-- Whether the program is to make one attempt for another one. -/
  worker : Bool
  deriving DecidableEq, Repr

/-- Why there is nothing to run. -/
inductive ArgumentProblem where
  | unknownArgument
  /-- An option has no value, or one that it does not allow. -/
  | invalidValue
  /-- The value of an option cannot be read. -/
  | valueValidation
  | tooManyValues
  | invalidSubcommand
  /-- An option that may be given once is given twice. -/
  | argumentConflict
  | displayHelp
  | displayVersion
  deriving DecidableEq, Repr

namespace ArgumentProblem

def helpText : String := String.intercalate "\n" [
  "Run a DAG of tasks in isolated processes, with retries and resumable checkpoints.", "",
  "Usage: dagrun [OPTIONS]", "", "Options:",
  "  -j, --jobdef <PATH>          Path to the job definition",
  "  -r, --restart                Resume from the checkpoint left by a failed or aborted run",
  "      --max-concurrency <N>    Maximum number of tasks running at once (0 = unbounded)",
  "      --skip <NAME>            Do not run this task",
  "      --run-to <NAME>          Only run this task and everything it depends on",
  "      --run-from <NAME>        Only run this task and everything that depends on it",
  "      --log-level <LEVEL>      Logging level (error, warn, info, debug, trace)",
  "      --dry-run                Print the task graph, but do not run anything",
  "  -h, --help                   Print help",
  "  -V, --version                Print version", ""]

/-- The exit code: asking for help or the version is no failure. -/
def exitCode : ArgumentProblem → Nat
  | .displayHelp | .displayVersion => 0
  | _ => 2

/-- What is put out instead of a run. -/
def output : ArgumentProblem → String
  | .displayHelp => helpText
  | .displayVersion => "dagrun 0.1.0\n"
  | _ => ""

end ArgumentProblem

/-- The options. -/
inductive Flag where
  | jobFile
  | restart
  | maxConcurrency
  | skip
  | runTo
  | runFrom
  | logLevel
  | dryRun
  | help
  | version
  deriving DecidableEq, Repr

namespace Flag

def takesValue : Flag → Bool
  | .restart | .dryRun | .help | .version => false
  | _ => true

def ofLong? : String → Option Flag
  | "jobdef" => some .jobFile
  | "restart" => some .restart
  | "max-concurrency" => some .maxConcurrency
  | "skip" => some .skip
  | "run-to" => some .runTo
  | "run-from" => some .runFrom
  | "log-level" => some .logLevel
  | "dry-run" => some .dryRun
  | "help" => some .help
  | "version" => some .version
  | _ => none

def ofShort? : Char → Option Flag
  | 'j' => some .jobFile
  | 'r' => some .restart
  | 'h' => some .help
  | 'V' => some .version
  | _ => none

end Flag

namespace Arguments

/-- What the program is asked for by no words at all. -/
def default : Arguments := ⟨"Dagrun.toml", false, none, [], none, none, none, false, false⟩

instance : Inhabited Arguments := ⟨default⟩

/-- The part of the job that is asked for. -/
def selection (arguments : Arguments) : Selection :=
  ⟨arguments.skip, arguments.runTo, arguments.runFrom⟩

/-- The command that asks for one attempt. -/
def workerCommand : String := "__worker"

def helpCommand : String := "help"

/-- Words read so far. -/
structure Reading where
  arguments : Arguments
  /-- The options that have been given. -/
  given : List Flag
  /-- An option whose value has not been looked at, with the value if it has come. -/
  pending : Option (Flag × Option String)
  deriving Repr

namespace Reading

def start : Reading := ⟨default, [], none⟩

/-- A number without a sign or with a plus. -/
def count? (text : String) : Option Nat :=
  let digits :=
    match text.toList with
    | '+' :: rest => rest
    | chars => chars
  if digits.isEmpty || !digits.all Char.isDigit then none
  else
    let value := Text.digitsValue digits
    if value < twoTo 64 then some value else none

/-- Sets what an option with a value asks for. -/
def assign (arguments : Arguments) (flag : Flag) (value : String) :
    Except ArgumentProblem Arguments :=
  match flag with
  | .jobFile =>
    if value.isEmpty then .error .invalidValue else .ok { arguments with jobFile := value }
  | .maxConcurrency =>
    match count? value with
    | some n => .ok { arguments with maxConcurrency := some n }
    | none => .error .valueValidation
  | .skip => .ok { arguments with skip := arguments.skip ++ [value] }
  | .runTo => .ok { arguments with runTo := some value }
  | .runFrom => .ok { arguments with runFrom := some value }
  | .logLevel =>
    match LogLevel.ofName? value with
    | some level => .ok { arguments with logLevel := some level }
    | none => .error .invalidValue
  | _ => .ok arguments

/-- Notes that an option is given; only `skip` may be given more than once. -/
def note (reading : Reading) (flag : Flag) : Except ArgumentProblem Reading :=
  if flag ≠ .skip ∧ flag ∈ reading.given then .error .argumentConflict
  else .ok { reading with given := flag :: reading.given }

def accept (reading : Reading) (flag : Flag) (value : String) : Except ArgumentProblem Reading := do
  let reading ← reading.note flag
  let arguments ← assign reading.arguments flag value
  return { reading with arguments }

/-- Looks at the value that has not been looked at. -/
def settle (reading : Reading) : Except ArgumentProblem Reading :=
  match reading.pending with
  | none => .ok reading
  | some (_, none) => .error .invalidValue
  | some (flag, some value) => { reading with pending := none }.accept flag value

/-- An option with a value that belongs to its word. -/
def attach (reading : Reading) (flag : Flag) (value : String) : Except ArgumentProblem Reading := do
  (← reading.settle).accept flag value

def await (reading : Reading) (flag : Flag) : Except ArgumentProblem Reading := do
  return { (← reading.settle) with pending := some (flag, none) }

def raise (reading : Reading) (flag : Flag) : Except ArgumentProblem Reading := do
  let reading ← reading.settle
  match flag with
  | .help => .error .displayHelp
  | .version => .error .displayVersion
  | .restart =>
    let reading ← reading.note flag
    return { reading with arguments := { reading.arguments with restart := true } }
  | _ =>
    let reading ← reading.note flag
    return { reading with arguments := { reading.arguments with dryRun := true } }

/-- A word with two dashes in front, without them. -/
def long (reading : Reading) (word : List Char) : Except ArgumentProblem Reading :=
  let name := String.ofList (word.takeWhile (· ≠ '='))
  match Flag.ofLong? name, word.dropWhile (· ≠ '=') with
  | none, _ => .error .unknownArgument
  | some flag, [] => if flag.takesValue then reading.await flag else reading.raise flag
  | some flag, _ :: value =>
    if flag.takesValue then reading.attach flag (String.ofList value) else .error .tooManyValues

/-- A word with one dash in front, without it: several options without a value, or one with the
rest as its value. -/
def short (reading : Reading) : List Char → Except ArgumentProblem Reading
  | [] => .ok reading
  | letter :: rest =>
    match Flag.ofShort? letter with
    | none => .error .unknownArgument
    | some flag =>
      if flag.takesValue then
        match rest with
        | [] => reading.await flag
        | '=' :: value => reading.attach flag (String.ofList value)
        | value => reading.attach flag (String.ofList value)
      else (reading.raise flag).bind fun reading => reading.short rest

/-- Whether the next word is the value of an option. -/
def awaits (reading : Reading) : Bool :=
  match reading.pending with
  | some (_, none) => true
  | _ => false

end Reading

/-- The words after two dashes alone, none of which can be anything. -/
def readTrailing (reading : Reading) : List String → Except ArgumentProblem Arguments
  | [] => reading.settle.map Reading.arguments
  | word :: _ =>
    if word = workerCommand ∨ word = helpCommand then .error .unknownArgument
    else .error .invalidSubcommand

/-- The words after the command that asks for one attempt, which takes none. -/
def readWorker (reading : Reading) : List String → Except ArgumentProblem Arguments
  | [] => reading.settle.map fun reading => { reading.arguments with worker := true }
  | ["--"] => reading.settle.map fun reading => { reading.arguments with worker := true }
  | word :: _ =>
    match word.toList with
    | '-' :: 'h' :: _ => .error .displayHelp
    | '-' :: '-' :: 'h' :: 'e' :: 'l' :: 'p' :: '=' :: _ => .error .tooManyValues
    | _ => if word = "--help" then .error .displayHelp else .error .unknownArgument

/-- The words after the command that asks for help, which name a command. -/
def readHelp : List String → ArgumentProblem
  | [] => .displayHelp
  | [word] =>
    if word = workerCommand ∨ word = helpCommand then .displayHelp else .invalidSubcommand
  | _ => .invalidSubcommand

def readWords (reading : Reading) : List String → Except ArgumentProblem Arguments
  | [] => reading.settle.map Reading.arguments
  | word :: rest =>
    if !reading.awaits && word = workerCommand then readWorker reading rest
    else if !reading.awaits && word = helpCommand then .error (readHelp rest)
    else
      match word.toList with
      | ['-', '-'] => readTrailing reading rest
      | '-' :: '-' :: name => (reading.long name).bind fun reading => readWords reading rest
      | '-' :: letter :: more =>
        (reading.short (letter :: more)).bind fun reading => readWords reading rest
      | _ =>
        match reading.pending with
        | some (flag, none) =>
          readWords { reading with pending := some (flag, some word) } rest
        | _ => .error .invalidSubcommand

def read (words : List String) : Except ArgumentProblem Arguments := readWords Reading.start words

end Arguments

end JobGraph
