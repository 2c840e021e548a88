import JobGraph.Shell.CommandRun
import JobGraph.Shell.Script
import JobGraph.Text.Digits

/-!
# The state of a shell

What a script can change while it runs: variables, functions, files, where its streams lead, and
what it has put out so far.
-/

namespace JobGraph.Shell

/-- Where output goes. -/
inductive Sink where
  | stream (stream : Stream)
  | pipe
  | nowhere
  | file (name : String)
  deriving DecidableEq, Repr

/-- Lines that come in, each with its time, and whether more may follow for ever. -/
structure Input where
  lines : List (Nat × String)
  stayOpen : Bool
  deriving DecidableEq, Repr

/-- Why a script does not go on with the next command. -/
inductive Halt where
  | exited
  | killed (signal : Nat)
  | blocked
  /-- A function or a loop is left, or the next turn of a loop begins. -/
  | returned
  | broken
  | continued
  deriving DecidableEq, Repr

namespace Halt

/-- What of a halt is left outside a part of a script that runs on its own. -/
def outside : Option Halt → Option Halt
  | some (.killed signal) => some (.killed signal)
  | some .blocked => some .blocked
  | _ => none

end Halt

structure State where
  bindings : List (String × String)
  /-- The variables that other commands see. -/
  exported : List String
  functions : List (String × Script)
  /-- The name that the script was called by. -/
  called : String
  /-- The words that the script or a function was called with. -/
  arguments : List String
  /-- What is done at a signal, or at the end. -/
  traps : List (String × String)
  /-- Whether a command that fails ends the script. -/
  strict : Bool
  status : Nat
  clock : Nat
  input : Input
  output : Sink
  errors : Sink
  /-- What was put out, the last first. -/
  written : List (Nat × Sink × List UInt8)
  present : List String
  made : List (Nat × String)
  contents : List (String × List UInt8)
  halt : Option Halt

/-- The number that stands for the process of a script. -/
def processId : String := "4242"

def nanosecondsPerSecond : Nat := 1000000000

namespace State

def start (present : List String) (input : Input) : State where
  bindings := []
  exported := []
  functions := []
  called := "sh"
  arguments := []
  traps := []
  strict := false
  status := 0
  clock := 0
  input := input
  output := .stream .output
  errors := .stream .errors
  written := []
  present := present
  made := []
  contents := []
  halt := none

def content (state : State) (file : String) : List UInt8 :=
  ((state.contents.find? fun entry => entry.1 == file).map Prod.snd).getD []

def setContent (state : State) (file : String) (bytes : List UInt8) : State :=
  { state with
    contents := (file, bytes) :: state.contents.filter fun entry => entry.1 != file }

def put (state : State) (sink : Sink) (bytes : List UInt8) : State :=
  match sink with
  | .file name => state.setContent name (state.content name ++ bytes)
  | _ => { state with written := (state.clock, sink, bytes) :: state.written }

def say (state : State) (text : String) : State := state.put state.output (Text.encodeUtf8 text)

/-- A complaint of the shell, with the number of its line. -/
def complain (state : State) (text : String) (status : Nat) : State :=
  { state.put state.errors (Text.encodeUtf8 ("sh: 1: " ++ text ++ "\n")) with status := status }

def complainAs (state : State) (text : String) (status : Nat) : State :=
  { state.put state.errors (Text.encodeUtf8 (text ++ "\n")) with status := status }

def succeed (state : State) : State := { state with status := 0 }

def answer (state : State) (holds : Bool) : State := { state with status := if holds then 0 else 1 }

/-- The value of a variable, if it has one. -/
def bound? (state : State) (name : String) : Option String :=
  (state.bindings.find? fun entry => entry.1 == name).map Prod.snd

/-- The value of a parameter, if it has one. -/
def value? (state : State) (name : String) : Option String :=
  match name.toList with
  | ['?'] => some (toString state.status)
  | ['$'] => some processId
  | ['#'] => some (toString state.arguments.length)
  | ['0'] => some state.called
  | ['@'] | ['*'] => some (String.intercalate " " state.arguments)
  | ['!'] | ['-'] => some ""
  | '#' :: rest => some (toString ((state.bound? (String.ofList rest)).getD "").length)
  | c :: rest =>
    if c.isDigit then state.arguments[Text.digitsValue (c :: rest) - 1]? else state.bound? name
  | [] => none

def value (state : State) (name : String) : String := (state.value? name).getD ""

def assign (state : State) (name value : String) : State :=
  { state with
    bindings := (name, value) :: state.bindings.filter fun entry => entry.1 != name }

def unset (state : State) (name : String) : State :=
  { state with bindings := state.bindings.filter fun entry => entry.1 != name }

/-- Makes a variable visible to other commands, with a value if one follows its name. -/
def exportWord (state : State) (word : String) : State :=
  let name := String.ofList (word.toList.takeWhile (· ≠ '='))
  let state := { state with exported := name :: state.exported }
  match word.toList.dropWhile (· ≠ '=') with
  | _ :: value => state.assign name (String.ofList value)
  | [] => state

def forChild (state : State) : State :=
  { state with
    bindings := state.bindings.filter fun entry => state.exported.contains entry.1
    functions := [], arguments := [], traps := [], strict := false }

/-- The state after a part of a script that ran on its own. -/
def afterChild (state child : State) : State :=
  { child with
    bindings := state.bindings, exported := state.exported, functions := state.functions
    called := state.called, arguments := state.arguments
    traps := state.traps, strict := state.strict
    output := state.output, errors := state.errors
    halt := Halt.outside child.halt }

def makeFile (state : State) (name : String) : State :=
  if state.present.contains name then state
  else { state with
    present := name :: state.present, made := state.made ++ [(state.clock, name)] }

/-- Takes the next line of input, waiting for it if need be. -/
def nextLine (state : State) : State × Option String :=
  match state.input.lines with
  | (time, line) :: rest =>
    ({ state with
        clock := max state.clock time, input := { state.input with lines := rest } }, some line)
  | [] =>
    if state.input.stayOpen then ({ state with halt := some .blocked }, none) else (state, none)

/-- Takes some lines of input, waiting for them if need be. -/
def nextLines : Nat → State → State × List String
  | 0, state => (state, [])
  | count + 1, state =>
    match state.nextLine with
    | (state, some line) =>
      let (state, lines) := nextLines count state
      (state, line :: lines)
    | (state, none) => (state, [])

def allInput (state : State) : State × List String :=
  let last := state.input.lines.foldl (fun time line => max time line.1) state.clock
  let lines := state.input.lines.map Prod.snd
  let state := { state with clock := last, input := { state.input with lines := [] } }
  (if state.input.stayOpen then { state with halt := some .blocked } else state, lines)

end State

/-- The lines of a text, each with its end if it has one. -/
def cutLines (line : List Char) : List Char → List String
  | [] => if line.isEmpty then [] else [String.ofList line.reverse]
  | c :: rest =>
    if c = '\n' then String.ofList (c :: line).reverse :: cutLines [] rest
    else cutLines (c :: line) rest

/-- The lines of bytes, as far as they are text. -/
def linesOfBytes (bytes : List UInt8) : List String :=
  cutLines [] ((Text.decodeUtf8? bytes).getD "").toList

def Input.ofBytes (bytes : List UInt8) : Input := ⟨(linesOfBytes bytes).map ((0, ·)), false⟩

end JobGraph.Shell
