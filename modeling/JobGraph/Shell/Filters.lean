import JobGraph.Shell.Arithmetic
import JobGraph.Shell.Printf
import JobGraph.Shell.State

/-!
# Filters

The commands that make lines of output out of lines of input or of the contents of files.
-/

namespace JobGraph.Shell

def chomp (line : String) : String :=
  if line.endsWith "\n" then (line.dropEnd 1).toString else line

def isOption (argument : String) : Bool := argument.startsWith "-" && argument != "-"

def hasOption (arguments : List String) (letter : Char) : Bool :=
  arguments.any fun argument => isOption argument && argument.toList.contains letter

def hasFile (state : State) (file : String) : Bool :=
  state.present.contains file || file.startsWith "/dev/"

/-- The lines of the files among the arguments, or else of the input. -/
def inputLines (state : State) (name : String) (arguments : List String) :
    State × List String :=
  let files := arguments.filter fun argument => !isOption argument
  if files.isEmpty || files == ["-"] then state.succeed.allInput
  else
    files.foldl
      (fun (state, lines) file =>
        if hasFile state file then (state, lines ++ linesOfBytes (state.content file))
        else (state.complainAs s!"{name}: {file}: No such file or directory" 1, lines))
      (state.succeed, [])

def sayAll (state : State) (lines : List String) : State := lines.foldl State.say state

/-- Puts out the lines of the input, or the contents of files. -/
def concatenate (state : State) (arguments : List String) : State :=
  let files := arguments.filter fun argument => !isOption argument
  if files.isEmpty || files == ["-"] then
    let (state, lines) := state.allInput
    sayAll state.succeed lines
  else
    files.foldl
      (fun state file =>
        if hasFile state file then
          let bytes := state.content file
          if bytes.isEmpty then state else state.put state.output bytes
        else state.complainAs s!"cat: {file}: No such file or directory" 1)
      state.succeed

/-- Whether one text stands inside another. -/
def occursIn (pattern : List Char) : List Char → Bool
  | [] => pattern.isEmpty
  | c :: rest => pattern.isPrefixOf (c :: rest) || occursIn pattern rest

/-- Whether a text with marks for its ends stands in a line. -/
def fitsLine (ignoresCase : Bool) (pattern line : String) : Bool :=
  let folded := fun (text : String) => if ignoresCase then text.toLower else text
  let line := (folded (chomp line)).toList
  let pattern := (folded pattern).toList
  match pattern with
  | '^' :: pattern =>
    if pattern.getLast? = some '$' then line == pattern.dropLast else pattern.isPrefixOf line
  | _ =>
    if pattern.getLast? = some '$' then pattern.dropLast.isSuffixOf line
    else occursIn pattern line

/-- Puts out the lines of the input that hold a text. -/
def search (state : State) (arguments : List String) : State :=
  let options := arguments.takeWhile isOption
  let rest := arguments.drop options.length
  let (state, lines) := inputLines state "grep" rest.tail
  let hits := lines.filter fun line =>
    fitsLine (hasOption options 'i') (rest.headD "") line != hasOption options 'v'
  let state :=
    if hasOption options 'q' then state
    else if hasOption options 'c' then state.say (toString hits.length ++ "\n")
    else sayAll state (hits.map fun line => chomp line ++ "\n")
  state.answer !hits.isEmpty

/-- The count among the arguments of a command that takes some lines, and the arguments without
it. -/
def takenCount : List String → Nat × Bool × List String
  | "-n" :: count :: rest => ((count.toNat?).getD 0, false, rest)
  | "-c" :: count :: rest => ((count.toNat?).getD 0, true, rest)
  | first :: rest =>
    match first.toList with
    | '-' :: 'n' :: count => (Text.digitsValue count, false, rest)
    | '-' :: 'c' :: count => (Text.digitsValue count, true, rest)
    | '-' :: count =>
      if count.all Char.isDigit && !count.isEmpty then (Text.digitsValue count, false, rest)
      else (10, false, first :: rest)
    | _ => (10, false, first :: rest)
  | [] => (10, false, [])

def takeFirst (state : State) (arguments : List String) : State :=
  let (count, ofBytes, files) := takenCount arguments
  if ofBytes then
    if files == ["/dev/zero"] then state.succeed.put state.output (List.replicate count 0)
    else
      let (state, lines) := inputLines state "head" files
      state.put state.output ((Text.encodeUtf8 (String.join lines)).take count)
  else if files.isEmpty then
    let (state, lines) := State.nextLines count state.succeed
    sayAll state lines
  else
    let (state, lines) := inputLines state "head" files
    sayAll state (lines.take count)

def takeLast (state : State) (arguments : List String) : State :=
  let (count, ofBytes, files) := takenCount arguments
  let (state, lines) := inputLines state "tail" files
  if ofBytes then
    let bytes := Text.encodeUtf8 (String.join lines)
    state.put state.output (bytes.drop (bytes.length - count))
  else sayAll state (lines.drop (lines.length - count))

/-- Puts out how many lines, words or bytes there are. -/
def countAll (state : State) (arguments : List String) : State :=
  let (state, lines) := inputLines state "wc" arguments
  let text := String.join lines
  let count :=
    if hasOption arguments 'l' then (text.toList.filter (· = '\n')).length
    else if hasOption arguments 'w' then
      ((text.toList.splitBy fun a b => (isSpace a || a = '\n') == (isSpace b || b = '\n')).filter
        fun run => !run.any fun c => isSpace c || c = '\n').length
    else if hasOption arguments 'm' then text.length
    else text.utf8ByteSize
  let files := arguments.filter fun argument => !isOption argument
  state.say (String.intercalate " " (toString count :: files) ++ "\n")

def withoutRepeats : List String → List String
  | first :: second :: rest =>
    if first = second then withoutRepeats (second :: rest)
    else first :: withoutRepeats (second :: rest)
  | lines => lines

def sortLines (state : State) (arguments : List String) : State :=
  let (state, lines) := inputLines state "sort" arguments
  let lines := lines.map chomp
  let ordered :=
    if hasOption arguments 'n' then
      lines.mergeSort fun first second => leadingInt first ≤ leadingInt second
    else lines.mergeSort (· ≤ ·)
  let ordered := if hasOption arguments 'u' then withoutRepeats ordered else ordered
  let ordered := if hasOption arguments 'r' then ordered.reverse else ordered
  sayAll state (ordered.map (· ++ "\n"))

def characterSet : List Char → List Char
  | first :: '-' :: last :: rest =>
    (List.range (last.toNat + 1 - first.toNat)).map (fun n => Char.ofNat (first.toNat + n))
      ++ characterSet rest
  | c :: rest => c :: characterSet rest
  | [] => []

def unescaped (word : String) : List Char :=
  ((Text.decodeUtf8? (printfBytes (word.replace "%" "%%") [])).getD "").toList

/-- Puts other characters in the place of some, or leaves them out. -/
def replaceCharacters (state : State) (arguments : List String) : State :=
  let sets := (arguments.filter fun argument => !isOption argument).map fun word =>
    characterSet (unescaped word)
  let (state, lines) := state.succeed.allInput
  let old := sets.headD []
  let text := (String.join lines).toList
  let replaced :=
    if hasOption arguments 'd' then text.filter fun c => !old.contains c
    else
      let new := (sets[1]?).getD []
      text.map fun c =>
        match old.idxOf? c with
        | some place => (new[min place (new.length - 1)]?).getD c
        | none => c
  state.put state.output (Text.encodeUtf8 (String.ofList replaced))

def countUp (state : State) (first last : Int) : State :=
  (List.range (last - first + 1).toNat).foldl
    (fun (state : State) (i : Nat) => state.say (toString (first + (i : Int)) ++ "\n"))
    state.succeed

end JobGraph.Shell
