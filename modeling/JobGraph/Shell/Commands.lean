import JobGraph.Shell.Filters

/-!
# Commands of the shell

The commands that do not run other commands.  Time passes only in `sleep` and while a command waits
for input.
-/

namespace JobGraph.Shell

/-- The number of a signal that is given by its name, with or without its beginning, or by its
number. -/
def signalNumber? (name : String) : Option Nat :=
  let full := if name.startsWith "SIG" then name else "SIG" ++ name
  match ExitStatus.signalNames.find? fun entry => entry.2 == full with
  | some (number, _) => some number
  | none => name.toNat?

/-- The time of a number of seconds with decimals and a unit. -/
def sleepTime? (text : String) : Option Nat :=
  let characters := text.toList
  let whole := characters.takeWhile Char.isDigit
  let rest := characters.drop whole.length
  let fraction :=
    match rest with
    | '.' :: digits => digits.takeWhile Char.isDigit
    | _ => []
  let afterNumber := rest.drop (if rest.head? = some '.' then fraction.length + 1 else 0)
  let factor? :=
    match afterNumber with
    | [] | ['s'] => some 1
    | ['m'] => some 60
    | ['h'] => some 3600
    | _ => none
  if whole.isEmpty && fraction.isEmpty then none
  else factor?.map fun factor =>
    Text.digitsValue (whole ++ fraction) * nanosecondsPerSecond / tenTo fraction.length * factor

/-- Directories that are always there. -/
def knownDirectories : List String := [".", "..", "/", "/tmp", "/usr", "/bin", "/etc", "/dev"]

/-- Whether a condition of `test` holds; none if it is not understood. -/
def evaluateTest? (state : State) : List String → Option Bool
  | [] => some false
  | ["!", a] => some (a == "")
  | "!" :: rest => (evaluateTest? state rest).map (!·)
  | [a] => some (a != "")
  | ["-n", a] => some (a != "")
  | ["-z", a] => some (a == "")
  | ["-e", file] | ["-r", file] | ["-w", file] =>
    some (hasFile state file || knownDirectories.contains file)
  | ["-f", file] => some (state.present.contains file)
  | ["-s", file] => some (state.present.contains file && !(state.content file).isEmpty)
  | ["-d", file] => some (knownDirectories.contains file)
  | [a, "=", b] => some (a == b)
  | [a, "!=", b] => some (a != b)
  | [a, "-eq", b] => some (leadingInt a == leadingInt b)
  | [a, "-ne", b] => some (leadingInt a != leadingInt b)
  | [a, "-lt", b] => some (leadingInt a < leadingInt b)
  | [a, "-le", b] => some (leadingInt a ≤ leadingInt b)
  | [a, "-gt", b] => some (leadingInt b < leadingInt a)
  | [a, "-ge", b] => some (leadingInt b ≤ leadingInt a)
  | _ => none

/-- Ends a script as `exit` does, or a function or a loop as its siblings do. -/
def leaveWith (state : State) (name : String) (halt : Halt) : List String → State
  | [] => { state with halt := some halt }
  | code :: _ =>
    if code.toList.all Char.isDigit && code != "" then
      { state with status := Text.digitsValue code.toList % 256, halt := some halt }
    else
      { state.complain s!"{name}: Illegal number: {code}" 2 with halt := some .exited }

/-- The signals that do nothing to a script that expects none. -/
def harmlessSignals : List Nat := [0, 17, 18, 23, 28]

/-- Sends a signal; only the script itself can be reached. -/
def kill (state : State) (arguments : List String) : State :=
  let (signal, targets) :=
    match arguments with
    | "-s" :: name :: rest => (signalNumber? name, rest)
    | first :: rest =>
      if first.startsWith "-" then (signalNumber? (first.drop 1).toString, rest)
      else (some 15, first :: rest)
    | [] => (some 15, [])
  match signal, targets with
  | some signal, [target] =>
    if target ≠ processId then state.complain "kill: No such process" 1
    else if harmlessSignals.contains signal then state.succeed
    else { state with halt := some (.killed signal) }
  | _, _ => state.complain "kill: Illegal option" 2

/-- What a shell says of a command that a signal ended. -/
def deathText? : Nat → Option String
  | 1 => some "Hangup"
  | 3 => some "Quit"
  | 4 => some "Illegal instruction"
  | 6 => some "Aborted"
  | 8 => some "Floating point exception"
  | 9 => some "Killed"
  | 10 => some "User defined signal 1"
  | 11 => some "Segmentation fault"
  | 12 => some "User defined signal 2"
  | 14 => some "Alarm clock"
  | 15 => some "Terminated"
  | _ => none

/-- A shell lives on when another one that it began is ended by a signal. -/
def survive (state : State) : State :=
  match state.halt with
  | some (.killed signal) =>
    let state := { state with halt := none }
    match deathText? signal with
    | some text => state.complainAs text (128 + signal)
    | none => { state with status := 128 + signal }
  | _ => state

/-- Notes what is to be done at signals, or at the end. -/
def setTraps (state : State) : List String → State
  | [] => state.succeed
  | action :: names =>
    let marks := names.map fun name =>
      if name = "EXIT" || name = "0" then "EXIT" else toString ((signalNumber? name).getD 0)
    let others := state.traps.filter fun entry => !marks.contains entry.1
    { state.succeed with
      traps := if action = "-" then others else marks.map ((·, action)) ++ others }

/-- Gives the words of a line to variables; the last one gets all that is left. -/
def assignWords (state : State) : List String → List Char → State
  | [], _ => state
  | [name], rest =>
    let trimmed := (rest.dropWhile isSpace).reverse.dropWhile isSpace
    state.assign name (String.ofList trimmed.reverse)
  | name :: names, rest =>
    let rest := rest.dropWhile isSpace
    let word := rest.takeWhile fun c => !isSpace c
    assignWords (state.assign name (String.ofList word)) names (rest.drop word.length)

def readLine (state : State) (arguments : List String) : State :=
  let names := arguments.filter fun argument => !isOption argument
  let (state, line?) := state.nextLine
  let line := line?.getD ""
  (assignWords state (if names.isEmpty then ["REPLY"] else names) (chomp line).toList).answer
    (line.endsWith "\n")

/-- Sets options and, behind two dashes, the words that the script was called with.  A failing
command ends the script while the option with the letter `e` is set. -/
def setOptions (state : State) (arguments : List String) : State :=
  let options := arguments.takeWhile (· ≠ "--")
  let state :=
    match arguments.dropWhile (· ≠ "--") with
    | _ :: words => { state with arguments := words }
    | [] => state
  options.foldl
    (fun state option =>
      match option.toList with
      | '-' :: letters => if letters.contains 'e' then { state with strict := true } else state
      | '+' :: letters => if letters.contains 'e' then { state with strict := false } else state
      | _ => state)
    state.succeed

def baseName (path : String) : String :=
  ((path.splitOn "/").filter (· ≠ "")).getLast?.getD "/"

def directoryName (path : String) : String :=
  if path.contains '/' then
    let above := String.intercalate "/" (path.splitOn "/").dropLast
    if above = "" then "/" else above
  else "."

/-- How many lines a command puts out that goes on until nobody reads them. -/
def endlessLines : Nat := 10000

/-- Runs a command that does not run other commands. -/
def runCommand (state : State) (name : String) (arguments : List String) : State :=
  match name with
  | ":" | "true" | "umask" | "wait" | "mkdir" | "chmod" | "sync" | "date" | "ulimit" =>
    state.succeed
  | "export" | "readonly" => arguments.foldl State.exportWord state.succeed
  | "local" => arguments.foldl State.exportWord state.succeed
  | "unset" => arguments.foldl State.unset state.succeed
  | "trap" => setTraps state arguments
  | "set" => setOptions state arguments
  | "shift" => { state.succeed with arguments := state.arguments.tail }
  | "cd" =>
    let place := arguments.headD "/"
    if knownDirectories.contains place then state.succeed
    else state.complain s!"cd: can't cd to {place}" 2
  | "." =>
    let file := arguments.headD ""
    if file = "/dev/null" then state.succeed
    else
      { state.complain (".: cannot open " ++ file ++ ": No such file") 2 with halt := some .exited }
  | "false" => { state with status := 1 }
  | "echo" => state.succeed.put state.output (echoBytes arguments)
  | "printf" =>
    match arguments with
    | format :: rest => state.succeed.put state.output (printfBytes format rest)
    | [] => state.complain "printf: usage: printf format [arg ...]" 2
  | "exit" => leaveWith state name .exited arguments
  | "return" => leaveWith state name .returned arguments
  | "break" => { state.succeed with halt := some .broken }
  | "continue" => { state.succeed with halt := some .continued }
  | "kill" => kill state arguments
  | "cat" => concatenate state arguments
  | "tee" =>
    let (state, lines) := state.succeed.allInput
    let files := arguments.filter fun argument => !isOption argument
    let state := files.foldl
      (fun state file =>
        (state.makeFile file).setContent file (Text.encodeUtf8 (String.join lines))) state
    sayAll state lines
  | "grep" => search state arguments
  | "head" => takeFirst state arguments
  | "tail" => takeLast state arguments
  | "wc" => countAll state arguments
  | "sort" => sortLines state arguments
  | "uniq" =>
    let (state, lines) := inputLines state name arguments
    sayAll state (withoutRepeats lines)
  | "tr" => replaceCharacters state arguments
  | "yes" =>
    let line := if arguments.isEmpty then "y" else String.intercalate " " arguments
    sayAll state.succeed (List.replicate endlessLines (line ++ "\n"))
  | "ls" =>
    let files := arguments.filter fun argument => !isOption argument
    let missing := files.filter fun file => !hasFile state file && !knownDirectories.contains file
    match missing with
    | file :: _ => state.complainAs s!"ls: cannot access '{file}': No such file or directory" 2
    | [] =>
      let shown := if files.isEmpty then state.present.mergeSort (· ≤ ·) else files
      sayAll state.succeed (shown.map (· ++ "\n"))
  | "basename" => state.succeed.say (baseName (arguments.headD "") ++ "\n")
  | "dirname" => state.succeed.say (directoryName (arguments.headD "") ++ "\n")
  | "expr" =>
    match evaluateArithmetic? (fun _ => 0) (String.intercalate " " arguments).toList with
    | some value => (state.say (toString value ++ "\n")).answer (value ≠ 0)
    | none => state.complainAs "expr: syntax error" 2
  | "seq" =>
    match arguments with
    | [last] => countUp state 1 (leadingInt last)
    | [first, last] => countUp state (leadingInt first) (leadingInt last)
    | _ => state.complainAs "seq: missing operand" 1
  | "sleep" =>
    match arguments.mapM sleepTime? with
    | some times =>
      if times.isEmpty then state.complainAs "sleep: missing operand" 1
      else { state.succeed with clock := times.foldl (· + ·) state.clock }
    | none => state.complainAs "sleep: invalid time interval" 1
  | "touch" => (arguments.filter fun a => !isOption a).foldl State.makeFile state.succeed
  | "rm" =>
    let files := arguments.filter fun a => !isOption a
    { state.succeed with
      present := state.present.filter fun file => !files.contains file
      made := state.made.filter fun file => !files.contains file.2 }
  | "test" =>
    match evaluateTest? state arguments with
    | some holds => state.answer holds
    | none => state.complain "test: unexpected operator" 2
  | "[" =>
    match evaluateTest? state arguments.dropLast with
    | some holds => state.answer holds
    | none => state.complain "[: unexpected operator" 2
  | "read" => readLine state arguments
  | _ => state.complain s!"{name}: not found" 127

end JobGraph.Shell
