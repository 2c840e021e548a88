import JobGraph.Shell.Token

/-!
# Shell scripts

The grammar of commands: simple commands with assignments and redirections, pipelines, lists with
`;`, `&&` and `||`, groups, subshells, loops, conditions, choices and definitions.
-/

namespace JobGraph.Shell

/-- Where a descriptor is led. -/
inductive Redirection where
  | toFile (descriptor : Nat) (file : Word) (append : Bool)
  | fromFile (descriptor : Nat) (file : Word)
  | duplicate (descriptor : Nat) (source : Word)
  deriving DecidableEq, Repr

inductive Script where
  | nothing
  | simple (assignments : List (String × Word)) (words : List Word)
      (redirections : List Redirection)
  | subshell (body : Script) (redirections : List Redirection)
  | group (body : Script) (redirections : List Redirection)
  | pipe (left right : Script)
  | negate (body : Script)
  | both (left right : Script)
  | either (left right : Script)
  | sequence (first second : Script)
  | forEach (name : String) (words : List Word) (body : Script)
  | whileTrue (condition body : Script)
  | conditional (condition yes no : Script)
  /-- The body runs if the word fits one of the patterns, and else what comes after it. -/
  | choose (word : Word) (patterns : List Word) (body after : Script)
  | define (name : String) (body : Script)
  deriving Repr, Inhabited

/-- The characters of a word without quotation and expansion. -/
def plainText? (word : Word) : Option String :=
  let contents := word.mapM fun part =>
    match part with
    | Part.text content false => some content
    | _ => none
  contents.map fun (contents : List (List Char)) => String.ofList contents.flatten

/-- The word at the front of the tokens, if it is this plain text. -/
def isKeyword (keyword : String) : List Token → Bool
  | .word word :: _ => plainText? word == some keyword
  | _ => false

def closingWords : List String := ["then", "else", "elif", "fi", "do", "done", "\x7d", "esac"]

def startsClosing (tokens : List Token) : Bool :=
  closingWords.any fun keyword => isKeyword keyword tokens

def skipNewlines : List Token → List Token
  | .newline :: rest => skipNewlines rest
  | tokens => tokens

/-- Why a text is no script. -/
inductive SyntaxProblem where
  | quotation
  | loopVariable
  /-- A token, or the end, where another one has to stand. -/
  | unexpected (found : Option Token) (expected : Option String)
  deriving DecidableEq, Repr

namespace SyntaxProblem

def reservedWords : List String :=
  ["if", "for", "while", "until", "case", "in", "!", "\x7b"] ++ closingWords

def tokenName : Option Token → String
  | none => "end of file"
  | some (.operator text) => "\"" ++ text ++ "\""
  | some .newline => "newline"
  | some (.descriptor _) => "redirection"
  | some (.word word) =>
    match plainText? word with
    | some text => if reservedWords.contains text then "\"" ++ text ++ "\"" else "word"
    | none => "word"

/-- The name of what has to stand in a place. -/
def expectedName (expected : String) : String :=
  if expected = "word" then expected else "\"" ++ expected ++ "\""

def message : SyntaxProblem → String
  | .quotation => "Syntax error: Unterminated quoted string"
  | .loopVariable => "Syntax error: Bad for loop variable"
  | .unexpected found none => "Syntax error: " ++ tokenName found ++ " unexpected"
  | .unexpected found (some expected) =>
    "Syntax error: " ++ tokenName found ++ " unexpected (expecting " ++ expectedName expected
      ++ ")"

end SyntaxProblem

/-- A script that is read from the front of the tokens, and the tokens behind it. -/
abbrev ReadScript := Except SyntaxProblem (Script × List Token)

/-- Words that are read from the front of the tokens, and the tokens behind them. -/
abbrev ReadWords := Except SyntaxProblem (List Word × List Token)

/-- Stands where the tokens do not go on as they have to. -/
def unexpectedAt {α : Type} (tokens : List Token) (expected : Option String) :
    Except SyntaxProblem α :=
  .error (.unexpected tokens.head? expected)

/-- The tokens after a keyword that has to stand at their front. -/
def expectKeyword (keyword : String) (tokens : List Token) :
    Except SyntaxProblem (List Token) :=
  let tokens := skipNewlines tokens
  if isKeyword keyword tokens then .ok tokens.tail else unexpectedAt tokens (some keyword)

/-- The tokens after an operator that has to stand at their front. -/
def expectOperator (operator : String) (tokens : List Token) :
    Except SyntaxProblem (List Token) :=
  if tokens.head? = some (.operator operator) then .ok tokens.tail
  else unexpectedAt tokens (some operator)

/-- An assignment at the start of a simple command. -/
def assignment? (word : Word) : Option (String × Word) :=
  let letters := word.takeWhile fun part =>
    match part with
    | .text content false => content.all isNameChar
    | _ => false
  match plainText? letters, word.drop letters.length with
  | some name, .text ['='] false :: value =>
    if name.toList.head?.any isNameStart then some (name, value) else none
  | _, _ => none

def readRedirection? : List Token → Option (Redirection × List Token)
  | .descriptor n :: .operator operator :: .word target :: rest => make n operator target rest
  | .operator operator :: .word target :: rest =>
    make (if operator = "<" ∨ operator = "<&" then 0 else 1) operator target rest
  | _ => none
where
  make (n : Nat) (operator : String) (target : Word) (rest : List Token) :
      Option (Redirection × List Token) :=
    match operator with
    | ">" => some (.toFile n target false, rest)
    | ">>" => some (.toFile n target true, rest)
    | "<" => some (.fromFile n target, rest)
    | "<&" | ">&" => some (.duplicate n target, rest)
    | _ => none

/-- All redirections at the front of the tokens; `budget` bounds their number. -/
def readRedirections : Nat → List Token → List Redirection × List Token
  | 0, tokens => ([], tokens)
  | budget + 1, tokens =>
    match readRedirection? tokens with
    | some (redirection, rest) =>
      let (others, rest) := readRedirections budget rest
      (redirection :: others, rest)
    | none => ([], tokens)

/-- The assignments, words and redirections of a simple command. -/
def readSimple (atStart : Bool) :
    Nat → List Token → (List (String × Word) × List Word × List Redirection) × List Token
  | 0, tokens => (([], [], []), tokens)
  | budget + 1, tokens =>
    match readRedirection? tokens with
    | some (redirection, rest) =>
      let ((assignments, words, redirections), rest) := readSimple atStart budget rest
      ((assignments, words, redirection :: redirections), rest)
    | none =>
      match tokens with
      | .word word :: rest =>
        match if atStart then assignment? word else none with
        | some assignment =>
          let ((assignments, words, redirections), rest) := readSimple true budget rest
          ((assignment :: assignments, words, redirections), rest)
        | none =>
          let ((assignments, words, redirections), rest) := readSimple false budget rest
          ((assignments, word :: words, redirections), rest)
      | _ => (([], [], []), tokens)

def readPlain (tokens : List Token) : ReadScript :=
  let ((assignments, words, redirections), rest) := readSimple true (tokens.length + 1) tokens
  if assignments.isEmpty && words.isEmpty && redirections.isEmpty then
    match tokens with
    | .operator "<" :: rest | .operator ">" :: rest => unexpectedAt rest none
    | _ => unexpectedAt tokens none
  else
    match rest with
    | .operator "<" :: rest | .operator ">" :: rest => unexpectedAt rest none
    | .operator "(" :: rest => unexpectedAt rest (some ")")
    | _ => .ok (.simple assignments words redirections, rest)

/-- The words of a loop, up to the end of the line or a semicolon. -/
def readLoopWords : List Token → ReadWords
  | .word word :: rest =>
    (readLoopWords rest).map fun (words, rest) => (word :: words, rest)
  | .operator ";" :: rest => .ok ([], rest)
  | .newline :: rest => .ok ([], rest)
  | tokens => unexpectedAt tokens none

/-- The patterns of a branch, up to the parenthesis behind them. -/
def readPatterns : List Token → ReadWords
  | .word word :: .operator "|" :: rest =>
    (readPatterns rest).map fun (words, rest) => (word :: words, rest)
  | .word word :: rest => (expectOperator ")" rest).map fun rest => ([word], rest)
  | tokens => unexpectedAt tokens (some ")")

def withRedirections (make : List Redirection → Script) (tokens : List Token) :
    Script × List Token :=
  let (redirections, rest) := readRedirections tokens.length tokens
  (make redirections, rest)

/-- A script in its own braces if redirections stand behind it. -/
def redirected (script : Script) (tokens : List Token) : Script × List Token :=
  match readRedirections tokens.length tokens with
  | ([], rest) => (script, rest)
  | (redirections, rest) => (.group script redirections, rest)

/-- Stands where the bound of the calls is used up. -/
def exhausted {α : Type} : Except SyntaxProblem α := .error (.unexpected none none)

mutual

/-- One command; the first argument bounds the number of calls. -/
def readCommand : Nat → List Token → ReadScript
  | 0, _ => exhausted
  | fuel + 1, tokens =>
    match tokens with
    | .operator "(" :: rest => do
      let (body, rest) ← readBody fuel (some ")") rest
      return withRedirections (.subshell body) (← expectOperator ")" rest)
    | .word name :: .operator "(" :: .operator ")" :: rest => do
      let (body, rest) ← readCommand fuel (skipNewlines rest)
      return (.define ((plainText? name).getD "") body, rest)
    | _ =>
      if isKeyword "\x7b" tokens then do
        let (body, rest) ← readBody fuel (some "\x7d") tokens.tail
        return withRedirections (.group body) (← expectKeyword "\x7d" rest)
      else if isKeyword "if" tokens then readIf fuel tokens.tail
      else if isKeyword "while" tokens then do
        let (condition, rest) ← readBody fuel (some "do") tokens.tail
        let (body, rest) ← readLoop fuel rest
        return redirected (.whileTrue condition body) rest
      else if isKeyword "until" tokens then do
        let (condition, rest) ← readBody fuel (some "do") tokens.tail
        let (body, rest) ← readLoop fuel rest
        return redirected (.whileTrue (.negate condition) body) rest
      else if isKeyword "case" tokens then
        match tokens.tail with
        | .word word :: rest => do readBranches fuel word (← expectKeyword "in" rest)
        | rest => unexpectedAt rest (some "word")
      else if isKeyword "for" tokens then
        match tokens.tail with
        | .word name :: rest => do
          let some name := plainText? name | throw .loopVariable
          if isKeyword "in" (skipNewlines rest) then
            let (words, rest) ← readLoopWords (skipNewlines rest).tail
            let (body, rest) ← readLoop fuel rest
            return redirected (.forEach name words body) rest
          else
            let rest := if rest.head? = some (.operator ";") then rest.tail else rest
            let (body, rest) ← readLoop fuel rest
            return redirected (.forEach name [[.parameter "@" false]] body) rest
        | _ => .error .loopVariable
      else if startsClosing tokens then unexpectedAt tokens none
      else readPlain tokens

def readLoop : Nat → List Token → ReadScript
  | 0, _ => exhausted
  | fuel + 1, tokens => do
    let (body, rest) ← readBody fuel (some "done") (← expectKeyword "do" tokens)
    return (body, ← expectKeyword "done" rest)

/-- The branches of a choice, up to its last word. -/
def readBranches : Nat → Word → List Token → ReadScript
  | 0, _, _ => exhausted
  | fuel + 1, word, tokens => do
    let tokens := skipNewlines tokens
    if isKeyword "esac" tokens then return (.nothing, tokens.tail)
    let tokens := if tokens.head? = some (.operator "(") then tokens.tail else tokens
    let (patterns, rest) ← readPatterns tokens
    let (body, rest) ← readList fuel rest
    let rest := skipNewlines rest
    let rest ← if isKeyword "esac" rest then pure rest else expectOperator ";;" rest
    let (after, rest) ← readBranches fuel word rest
    return (.choose word patterns body after, rest)

/-- The rest of a condition after its first word. -/
def readIf : Nat → List Token → ReadScript
  | 0, _ => exhausted
  | fuel + 1, tokens => do
    let (condition, rest) ← readBody fuel (some "then") tokens
    let rest ← expectKeyword "then" rest
    let (yes, rest) ← readBody fuel (some "fi") rest
    let rest := skipNewlines rest
    if isKeyword "else" rest then
      let (no, rest) ← readBody fuel (some "fi") rest.tail
      return redirected (.conditional condition yes no) (← expectKeyword "fi" rest)
    else if isKeyword "elif" rest then
      let (no, rest) ← readIf fuel rest.tail
      return (.conditional condition yes no, rest)
    else return redirected (.conditional condition yes .nothing) (← expectKeyword "fi" rest)

def readPipeline : Nat → List Token → ReadScript
  | 0, _ => exhausted
  | fuel + 1, tokens =>
    if isKeyword "!" tokens then do
      let (body, rest) ← readPipeline fuel tokens.tail
      return (.negate body, rest)
    else do
      let (first, rest) ← readCommand fuel tokens
      match rest with
      | .operator "|" :: rest =>
        let (second, rest) ← readPipeline fuel (skipNewlines rest)
        return (.pipe first second, rest)
      | _ => return (first, rest)

/-- Pipelines joined by `&&` and `||`, each taking what stands before it as its left side. -/
def readChain : Nat → Script → List Token → ReadScript
  | 0, _, _ => exhausted
  | fuel + 1, left, tokens =>
    match tokens with
    | .operator "&&" :: rest => do
      let (right, rest) ← readPipeline fuel (skipNewlines rest)
      readChain fuel (.both left right) rest
    | .operator "||" :: rest => do
      let (right, rest) ← readPipeline fuel (skipNewlines rest)
      readChain fuel (.either left right) rest
    | _ => .ok (left, tokens)

/-- A list of commands that is not empty, in front of what is expected. -/
def readBody : Nat → Option String → List Token → ReadScript
  | 0, _, _ => exhausted
  | fuel + 1, expected, tokens =>
    let tokens := skipNewlines tokens
    if tokens.isEmpty then unexpectedAt tokens expected
    else if startsClosing tokens then unexpectedAt tokens none
    else do
      let (body, rest) ← readList fuel tokens
      if rest.isEmpty then unexpectedAt rest expected
      else return (body, rest)

/-- A list of commands, up to a word or sign that closes it. -/
def readList : Nat → List Token → ReadScript
  | 0, _ => exhausted
  | fuel + 1, tokens =>
    let tokens := skipNewlines tokens
    if tokens.isEmpty || startsClosing tokens then .ok (.nothing, tokens)
    else
      match tokens with
      | .operator ")" :: _ | .operator ";;" :: _ => .ok (.nothing, tokens)
      | _ => do
        let (first, rest) ← readPipeline fuel tokens
        let (chain, rest) ← readChain fuel first rest
        match rest with
        | .operator ";" :: rest | .operator "&" :: rest | .newline :: rest =>
          let (others, rest) ← readList fuel rest
          return (.sequence chain others, rest)
        | _ => return (chain, rest)

end

/-- The script of a text, or why it is none. -/
def Script.read (text : List Char) : Except SyntaxProblem Script := do
  let some tokens := tokens? text | throw .quotation
  match ← readList (8 * tokens.length + 8) tokens with
  | (script, []) => return script
  | (_, rest) => unexpectedAt rest none

/-- The script of a text; none if it is not well formed. -/
def Script.read? (text : List Char) : Option Script := (Script.read text).toOption

end JobGraph.Shell
