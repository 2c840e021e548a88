/-!
# Tokens of a shell command

The text of a command is a list of words and operators.  A word is a list of parts, since quotation
marks and expansions may stand anywhere in it.
-/

namespace JobGraph.Shell

/-- A part of a word; quoted parts are not split into fields. -/
inductive Part where
  | text (content : List Char) (quoted : Bool)
  | parameter (name : String) (quoted : Bool)
  | substitution (command : List Char) (quoted : Bool)
  | arithmetic (expression : List Char) (quoted : Bool)
  /-- A parameter with an operator and the word that the operator may put in its place. -/
  | choice (name operator : String) (word : List Char) (quoted : Bool)
  deriving DecidableEq, Repr

abbrev Word := List Part

/-- A word, an operator, the number in front of a redirection, or the end of a line. -/
inductive Token where
  | word (parts : Word)
  | operator (text : String)
  | descriptor (number : Nat)
  | newline
  deriving DecidableEq, Repr

def isSpace (c : Char) : Bool := c = ' ' || c = '\t'

/-- Whether a character ends a word that is not quoted. -/
def endsWord (c : Char) : Bool :=
  isSpace c || c = '\n' || c = ';' || c = '&' || c = '|' || c = '<' || c = '>' || c = '('
    || c = ')'

def isNameStart (c : Char) : Bool := c.isAlpha || c = '_'

def isNameChar (c : Char) : Bool := c.isAlphanum || c = '_'

/-- The parameters whose name is one sign or digit. -/
def isSpecial (c : Char) : Bool :=
  c = '$' || c = '?' || c = '#' || c = '@' || c = '*' || c = '!' || c = '-' || c.isDigit

/-- The text up to the parenthesis that closes a substitution. -/
def takeSubstitution : Nat → List Char → Option (List Char × List Char)
  | _, [] => none
  | 0, ')' :: rest => some ([], rest)
  | depth, c :: rest =>
    let depth := if c = '(' then depth + 1 else if c = ')' then depth - 1 else depth
    (takeSubstitution depth rest).map fun (inner, after) => (c :: inner, after)

/-- The operators of a parameter, longer ones before those that begin them. -/
def parameterOperators : List String := [":-", ":=", ":+", "-", "=", "+", "%%", "%", "##", "#"]

/-- The rest of an expansion in braces after its name. -/
def readChoice? (quoted : Bool) (name rest : List Char) : Option (Part × List Char) := do
  let operator ← parameterOperators.find? fun operator => operator.toList.isPrefixOf rest
  let rest := rest.drop operator.length
  let word := rest.takeWhile (· ≠ '}')
  let after ← (rest.drop word.length).tail?
  some (.choice (String.ofList name) operator word quoted, after)

/-- The substitution of a command, or of an expression that has brackets of its own. -/
def substitutionOf (quoted : Bool) (inner : List Char) : Part :=
  match inner with
  | '(' :: rest =>
    if rest.getLast? = some ')' then .arithmetic rest.dropLast quoted
    else .substitution inner quoted
  | _ => .substitution inner quoted

/-- The expansion after a dollar sign, if one stands there. -/
def readExpansion? (quoted : Bool) : List Char → Option (Part × List Char)
  | '{' :: rest =>
    let special := rest.takeWhile isSpecial
    let name := if special.isEmpty || special = ['#']
      then special ++ (rest.drop special.length).takeWhile isNameChar else special
    match rest.drop name.length with
    | '}' :: after => some (.parameter (String.ofList name) quoted, after)
    | rest => readChoice? quoted name rest
  | '(' :: rest =>
    (takeSubstitution 0 rest).map fun (inner, after) => (substitutionOf quoted inner, after)
  | c :: rest =>
    if isNameStart c then
      let name := (c :: rest).takeWhile isNameChar
      some (.parameter (String.ofList name) quoted, (c :: rest).drop name.length)
    else if isSpecial c then some (.parameter (String.singleton c) quoted, rest)
    else none
  | [] => none

/-- The parts between double quotation marks; `budget` bounds their number. -/
def readQuoted : Nat → List Char → Option (Word × List Char)
  | 0, _ => none
  | budget + 1, text =>
    match text with
    | [] => none
    | '"' :: rest => some ([], rest)
    | '\\' :: c :: rest =>
      let kept := if c = '"' ∨ c = '\\' ∨ c = '$' ∨ c = '\x60' then [c] else ['\\', c]
      (readQuoted budget rest).map fun (parts, after) => (.text kept true :: parts, after)
    | '$' :: rest =>
      match readExpansion? true rest with
      | some (part, after) =>
        (readQuoted budget after).map fun (parts, after) => (part :: parts, after)
      | none =>
        (readQuoted budget rest).map fun (parts, after) => (.text ['$'] true :: parts, after)
    | '\x60' :: rest =>
      let command := rest.takeWhile (· ≠ '\x60')
      (readQuoted budget (rest.drop (command.length + 1))).map fun (parts, after) =>
        (.substitution command true :: parts, after)
    | c :: rest =>
      (readQuoted budget rest).map fun (parts, after) => (.text [c] true :: parts, after)

/-- The parts of a word; `budget` bounds their number. -/
def readWord : Nat → List Char → Option (Word × List Char)
  | 0, _ => none
  | budget + 1, text =>
    match text with
    | [] => some ([], [])
    | '\'' :: rest =>
      let content := rest.takeWhile (· ≠ '\'')
      match rest.drop content.length with
      | _ :: after =>
        (readWord budget after).map fun (parts, rest) => (.text content true :: parts, rest)
      | [] => none
    | '"' :: rest =>
      match readQuoted rest.length.succ rest with
      | some (quoted, after) =>
        (readWord budget after).map fun (parts, rest) => (.text [] true :: quoted ++ parts, rest)
      | none => none
    | '\\' :: '\n' :: rest => readWord budget rest
    | '\\' :: c :: rest =>
      (readWord budget rest).map fun (parts, after) => (.text [c] true :: parts, after)
    | '$' :: rest =>
      match readExpansion? false rest with
      | some (part, after) =>
        (readWord budget after).map fun (parts, after) => (part :: parts, after)
      | none => (readWord budget rest).map fun (parts, after) => (.text ['$'] false :: parts, after)
    | '\x60' :: rest =>
      let command := rest.takeWhile (· ≠ '\x60')
      (readWord budget (rest.drop (command.length + 1))).map fun (parts, after) =>
        (.substitution command false :: parts, after)
    | c :: rest =>
      if endsWord c then some ([], c :: rest)
      else (readWord budget rest).map fun (parts, after) => (.text [c] false :: parts, after)

/-- The operators, longer ones before those that begin them. -/
def operators : List String :=
  ["&&", "||", ";;", "<<", ">>", "<&", ">&", "&", "|", ";", "<", ">", "(", ")"]

def readOperator? (text : List Char) : Option (String × List Char) :=
  (operators.find? fun operator => operator.toList.isPrefixOf text).map fun operator =>
    (operator, text.drop operator.length)

/-- The tokens of a text; `budget` bounds their number. -/
def readTokens : Nat → List Char → Option (List Token)
  | 0, _ => none
  | budget + 1, text =>
    match text with
    | [] => some []
    | '\n' :: rest => (readTokens budget rest).map (.newline :: ·)
    | '#' :: rest => readTokens budget (rest.dropWhile (· ≠ '\n'))
    | '\\' :: '\n' :: rest => readTokens budget rest
    | c :: rest =>
      if isSpace c then readTokens budget rest
      else
        let digits := text.takeWhile Char.isDigit
        let afterDigits := text.drop digits.length
        if !digits.isEmpty && afterDigits.head?.any fun c => c = '<' || c = '>' then
          let number := digits.foldl (fun total digit => 10 * total + (digit.toNat - 48)) 0
          (readTokens budget afterDigits).map (.descriptor number :: ·)
        else
          match readOperator? text with
          | some (operator, after) => (readTokens budget after).map (.operator operator :: ·)
          | none =>
            match readWord (text.length + 1) text with
            | some (parts, after) => (readTokens budget after).map (.word parts :: ·)
            | none => none

/-- The tokens of a command; none if a quotation is not closed. -/
def tokens? (text : List Char) : Option (List Token) := readTokens (text.length + 1) text

end JobGraph.Shell
