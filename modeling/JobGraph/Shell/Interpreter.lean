import JobGraph.Shell.Commands
import JobGraph.Shell.Pattern

/-!
# Running shell scripts

A small shell: it expands words, redirects streams, and knows the commands that tasks use in
practice.  The answer is everything that the script does, with times.
-/

namespace JobGraph.Shell

/-- A piece of a word after its expansion; quoted pieces are not split into fields. -/
structure Piece where
  text : List Char
  quoted : Bool
  /-- Whether it stood in the word as it is. -/
  literal : Bool
  deriving DecidableEq, Repr

/-- Splits what an expansion gave into fields at its blanks. -/
def splitFields (value : List Char) (done : List (List Char)) (current : Option (List Char)) :
    List (List Char) × Option (List Char) :=
  value.foldl
    (fun (done, current) c =>
      if isSpace c || c = '\n' then
        match current with
        | some field => (done ++ [field], none)
        | none => (done, none)
      else (done, some (current.getD [] ++ [c])))
    (done, current)

def fieldsOf (pieces : List Piece) : List String :=
  let (done, current) := pieces.foldl
    (fun ((done, current) : List (List Char) × Option (List Char)) piece =>
      if piece.quoted then (done, some (current.getD [] ++ piece.text))
      else if piece.literal then
        (done, if piece.text.isEmpty then current else some (current.getD [] ++ piece.text))
      else splitFields piece.text done current)
    ([], none)
  (done ++ current.toList).map String.ofList

def textOf (pieces : List Piece) : List Char := pieces.flatMap Piece.text

def patternOf (pieces : List Piece) : List PatternChar :=
  pieces.flatMap fun piece => piece.text.map ((·, piece.quoted))

/-- The bytes that were handed to a pipe after a point in the output. -/
def pipedBytes (written : List (Nat × Sink × List UInt8)) : List UInt8 :=
  (written.reverse.filter fun entry => entry.2.1 == Sink.pipe).flatMap fun entry => entry.2.2

/-- The number that a variable stands for in an expression. -/
def numberOf (state : State) (name : String) : Int := leadingInt (state.value name)

/-- Whether a part of a word runs a command. -/
def isSubstitution : Part → Bool
  | .substitution _ _ => true
  | _ => false

/-- Where a stream leads whose descriptor is copied. -/
def copiedSink (state : State) (descriptor : String) : Sink :=
  if descriptor = "1" then state.output
  else if descriptor = "2" then state.errors
  else .nowhere

/-- Leads a descriptor of output to another place. -/
def lead (state : State) (descriptor : Nat) (sink : Sink) : State :=
  if descriptor = 2 then { state with errors := sink }
  else if descriptor = 1 then { state with output := sink }
  else state

/-- Leads a descriptor to a file, or to one of the places that only look like one. -/
def leadToFile (state : State) (descriptor : Nat) (file : String) (append : Bool) : State :=
  if file = "/dev/null" then lead state descriptor .nowhere
  else if file = "/dev/stdout" then lead state descriptor state.output
  else if file = "/dev/stderr" then lead state descriptor state.errors
  else
    let state := state.makeFile file
    lead (if append then state else state.setContent file []) descriptor (.file file)

/-- Whether a command that fails may end the script. -/
def isStrictPoint : Script → Bool
  | .both _ _ | .either _ _ | .negate _ => false
  | _ => true

def trap? (state : State) (mark : String) : Option String :=
  (state.traps.find? fun entry => entry.1 == mark).map Prod.snd

/-- The name of a command without the directories in which commands are. -/
def commandName (name : String) : String :=
  if name.startsWith "/bin/" || name.startsWith "/usr/bin/" then baseName name else name

mutual

/-- The pieces of a word; the first argument bounds the calls. -/
def resolve : Nat → State → Word → State × List Piece
  | 0, state, _ => (state, [])
  | _ + 1, state, [] => (state, [])
  | fuel + 1, state, part :: rest =>
    let (state, pieces) : State × List Piece :=
      match part with
      | .text content quoted => (state, [⟨content, quoted, true⟩])
      | .parameter name quoted => (state, [⟨(state.value name).toList, quoted, false⟩])
      | .arithmetic expression quoted =>
        match evaluateArithmetic? (numberOf state) expression with
        | some value => (state, [⟨(toString value).toList, quoted, false⟩])
        | none =>
          let text := String.ofList expression
          ({ state.complain s!"arithmetic expression: expecting primary: \"{text}\"" 2 with
            halt := some .exited }, [])
      | .choice name operator word quoted => resolveChoice fuel state name operator word quoted
      | .substitution command quoted =>
        let child := execute fuel { state with output := .pipe, traps := [] }
          ((Script.read? command).getD .nothing)
        let fresh := child.written.take (child.written.length - state.written.length)
        let text := ((Text.decodeUtf8? (pipedBytes fresh)).getD "").toList
        let trimmed := (text.reverse.dropWhile (· = '\n')).reverse
        let kept := fresh.filter fun entry => entry.2.1 != Sink.pipe
        ({ state.afterChild child with written := kept ++ state.written },
          [⟨trimmed, quoted, false⟩])
    let (state, others) := resolve fuel state rest
    (state, pieces ++ others)

/-- The pieces of a parameter with an operator. -/
def resolveChoice (fuel : Nat) (state : State) (name operator : String) (word : List Char)
    (quoted : Bool) : State × List Piece :=
  match fuel with
  | 0 => (state, [])
  | fuel + 1 =>
    let value := (state.value name).toList
    let absent := (state.value? name).isNone || operator.startsWith ":" && value.isEmpty
    let parts := ((readWord (word.length + 1) (word.filter (· ≠ ' '))).map Prod.fst).getD []
    let parts := if word.contains ' ' then [Part.text word quoted] else parts
    let whole : List Piece := [⟨value, quoted, false⟩]
    if operator = ":-" || operator = "-" then
      if absent then resolve fuel state parts else (state, whole)
    else if operator = ":+" || operator = "+" then
      if absent then (state, []) else resolve fuel state parts
    else if operator = ":=" || operator = "=" then
      if absent then
        let (state, pieces) := resolve fuel state parts
        (state.assign name (String.ofList (textOf pieces)), pieces)
      else (state, whole)
    else
      let (state, pieces) := resolve fuel state parts
      let pattern := patternOf pieces
      let kept :=
        if operator = "%" then dropEnd false pattern value
        else if operator = "%%" then dropEnd true pattern value
        else if operator = "#" then dropStart false pattern value
        else dropStart true pattern value
      (state, [⟨kept, quoted, false⟩])

def expandAll (fuel : Nat) (state : State) (words : List Word) : State × List String :=
  match fuel with
  | 0 => (state, [])
  | fuel + 1 =>
    match words with
    | [] => (state, [])
    | word :: rest =>
      let (state, pieces) := resolve fuel state word
      let (state, others) := expandAll fuel state rest
      (state, fieldsOf pieces ++ others)

def assignAll (fuel : Nat) (state : State) (assignments : List (String × Word)) : State :=
  match fuel with
  | 0 => state
  | fuel + 1 =>
    match assignments with
    | [] => state
    | (name, word) :: rest =>
      let (state, pieces) := resolve fuel state word
      assignAll fuel (state.assign name (String.ofList (textOf pieces))) rest

def redirect (fuel : Nat) (state : State) (redirections : List Redirection) : State :=
  match fuel with
  | 0 => state
  | fuel + 1 =>
    match redirections with
    | [] => state
    | .toFile descriptor file append :: rest =>
      let (state, pieces) := resolve fuel state file
      redirect fuel (leadToFile state descriptor (String.ofList (textOf pieces)) append) rest
    | .fromFile _ file :: rest =>
      let (state, pieces) := resolve fuel state file
      let bytes := state.content (String.ofList (textOf pieces))
      redirect fuel { state with input := .ofBytes bytes } rest
    | .duplicate descriptor source :: rest =>
      let (state, pieces) := resolve fuel state source
      let name := String.ofList (textOf pieces)
      let state :=
        if descriptor = 0 then
          if name = "-" then { state with input := ⟨[], false⟩ } else state
        else lead state descriptor (copiedSink state name)
      redirect fuel state rest

/-- Carries out a script; the first argument bounds the number of calls. -/
def execute : Nat → State → Script → State
  | 0, state, _ => state
  | fuel + 1, state, script =>
    if state.halt.isSome then state
    else
      match script with
      | .nothing => state
      | .simple assignments words redirections =>
        let (state, fields) := expandAll fuel state words
        if state.halt.isSome then state
        else if fields.isEmpty then
          let (output, errors, input) := (state.output, state.errors, state.input)
          let runs := assignments.any fun assignment => assignment.2.any isSubstitution
          let after := assignAll fuel (redirect fuel state redirections) assignments
          { after with
            output, errors, input
            status := if runs then after.status else 0 }
        else
          let before := state.bindings
          let exported := state.exported
          let assigned := assignAll fuel state assignments
          let assigned :=
            { assigned with exported := assignments.map Prod.fst ++ exported }
          let led := redirect fuel assigned redirections
          let back := fun (after : State) =>
            { after with
              output := state.output, errors := state.errors
              input := if led.input == state.input then after.input else state.input
              bindings := if assignments.isEmpty then after.bindings else before
              exported := if assignments.isEmpty then after.exported else exported }
          match fields with
          | ["exec"] => led.succeed
          | "exec" :: name :: arguments =>
            let after := runNamed fuel led name arguments
            if after.halt.isSome then after else { after with halt := some .exited }
          | name :: arguments => back (runNamed fuel led name arguments)
          | [] => led
      | .subshell body redirections =>
        let inner := execute fuel { redirect fuel state redirections with traps := [] } body
        state.afterChild inner
      | .group body redirections =>
        let led := redirect fuel state redirections
        let inner := execute fuel led body
        { inner with
          output := state.output, errors := state.errors
          input := if led.input == state.input then inner.input else state.input }
      | .pipe left right =>
        let first := execute fuel { state with output := .pipe, traps := [] } left
        let fresh := first.written.take (first.written.length - state.written.length)
        let kept := fresh.filter fun entry => entry.2.1 != Sink.pipe
        let between := state.afterChild first
        let second := execute fuel
          { between with
            written := kept ++ state.written
            input := .ofBytes (pipedBytes fresh)
            traps := [] } right
        { state.afterChild second with input := first.input }
      | .negate body =>
        let after := execute fuel state body
        if after.halt.isSome then after else after.answer (after.status ≠ 0)
      | .both left right =>
        let after := execute fuel state left
        if after.status = 0 then execute fuel after right else after
      | .either left right =>
        let after := execute fuel state left
        if after.status = 0 then after else execute fuel after right
      | .sequence first second =>
        let after := execute fuel state first
        if after.strict && after.status ≠ 0 && isStrictPoint first && after.halt.isNone then
          { after with halt := some .exited }
        else execute fuel after second
      | .forEach name words body =>
        let (state, fields) := expandAll fuel state words
        repeatFor fuel name body fields state.succeed
      | .whileTrue condition body =>
        let asked := execute fuel { state with strict := false } condition
        let asked := { asked with strict := state.strict }
        if asked.halt.isSome then asked
        else if asked.status = 0 then
          let after := execute fuel asked body
          match after.halt with
          | some .broken => { after with halt := none }
          | some .continued => execute fuel { after with halt := none } (.whileTrue condition body)
          | some _ => after
          | none => execute fuel after (.whileTrue condition body)
        else asked.succeed
      | .conditional condition yes no =>
        let asked := execute fuel { state with strict := false } condition
        let asked := { asked with strict := state.strict }
        if asked.halt.isSome then asked
        else if asked.status = 0 then execute fuel asked yes
        else execute fuel asked.succeed no
      | .choose word patterns body after =>
        let (state, pieces) := resolve fuel state word
        if fitsAny fuel state patterns (textOf pieces) then execute fuel state.succeed body
        else execute fuel state.succeed after
      | .define name body =>
        { state.succeed with
          functions := (name, body) :: state.functions.filter fun entry => entry.1 != name }

def fitsAny (fuel : Nat) (state : State) (patterns : List Word) (text : List Char) : Bool :=
  match fuel with
  | 0 => false
  | fuel + 1 =>
    match patterns with
    | [] => false
    | pattern :: rest =>
      fits (patternOf (resolve fuel state pattern).2) text || fitsAny fuel state rest text

/-- Carries out a script for each of several fields. -/
def repeatFor (fuel : Nat) (name : String) (body : Script) (fields : List String) (state : State) :
    State :=
  match fuel with
  | 0 => state
  | fuel + 1 =>
    match fields with
    | [] => state
    | field :: rest =>
      let after := execute fuel (state.assign name field) body
      match after.halt with
      | some .broken => { after with halt := none }
      | some .continued => repeatFor fuel name body rest { after with halt := none }
      | some _ => after
      | none => repeatFor fuel name body rest after

/-- Runs a command by its name; some run other commands. -/
def runNamed (fuel : Nat) (state : State) (name : String) (arguments : List String) : State :=
  match fuel with
  | 0 => state
  | fuel + 1 =>
    match state.functions.find? fun entry => entry.1 == name with
    | some (_, body) =>
      let after := execute fuel { state with arguments } body
      { after with
        arguments := state.arguments
        halt := if after.halt = some .returned then none else after.halt }
    | none =>
      match commandName name, arguments with
      | "sh", "-c" :: command :: rest | "dash", "-c" :: command :: rest =>
        let fresh := { state.forChild with called := rest.headD name, arguments := rest.tail }
        let child :=
          match Script.read command.toList with
          | .ok script => runToEnd fuel fresh script
          | .error problem => fresh.complain problem.message 2
        survive (state.afterChild child)
      | "eval", words =>
        execute fuel state ((Script.read? (String.intercalate " " words).toList).getD .nothing)
      | "command", name :: arguments | "env", name :: arguments | "nohup", name :: arguments =>
        runNamed fuel state name arguments
      | "env", [] =>
        sayAll state.succeed (state.forChild.bindings.map fun (name, value) =>
          name ++ "=" ++ value ++ "\n")
      | plain, _ =>
        let after := runCommand state plain arguments
        match after.halt with
        | some (.killed signal) =>
          match if signal = 9 then none else trap? state (toString signal) with
          | some action =>
            execute fuel { after with halt := none, status := 0 }
              ((Script.read? action.toList).getD .nothing)
          | none => after
        | _ => after

/-- Carries out a script, and at its end what is to be done there. -/
def runToEnd (fuel : Nat) (state : State) (script : Script) : State :=
  match fuel with
  | 0 => state
  | fuel + 1 =>
    let after := execute fuel state script
    match Halt.outside after.halt, trap? after "EXIT" with
    | none, some action =>
      let last := execute fuel { after with halt := none, traps := [] }
        ((Script.read? action.toList).getD .nothing)
      if last.halt.isNone then { last with status := after.status } else last
    | _, _ => after

end

/-- How often a loop or a nested command may go on. -/
def callBound : Nat := 100000

/-- The chunks of output on the streams of a script. -/
def chunksOf (state : State) : List Chunk :=
  state.written.reverse.filterMap fun (time, sink, bytes) =>
    match sink with
    | .stream stream => if bytes.isEmpty then none else some ⟨time, stream, bytes⟩
    | _ => none

/-- Everything that the command `sh -c text` does, with the files there are and its input. -/
def run (text : String) (present : List String) (input : Input) : CommandRun :=
  let start := State.start present input
  let final :=
    match Script.read text.toList with
    | .ok script => runToEnd callBound start script
    | .error problem => start.complain problem.message 2
  { chunks := chunksOf final
    files := final.made
    finish :=
      match final.halt with
      | some .blocked => none
      | some (.killed signal) => some (final.clock, .signal signal)
      | _ => some (final.clock, .code final.status)
    taken := input.lines.length - final.input.lines.length }

end JobGraph.Shell
