import JobGraph.Toml.Draft
import JobGraph.Toml.Scalar

/-!
# Reading a job file

A file is a sequence of lines: the header of a table, the header of a further table of an array, a
key with its value, a comment, or nothing.  Values in brackets and braces may run over several
lines, hold comments and end with a comma.  `read?` gives the table that the whole file describes.
-/

namespace JobGraph.Toml

/-! ## Blanks, comments and ends of lines -/

def isSpace (c : Char) : Bool := c = ' ' || c = '\t'

def skipSpaces : List Char → List Char := List.dropWhile isSpace

/-- Whether a character may not stand in a comment or a string. -/
def isControl (c : Char) : Bool := (c < ' ' && c ≠ '\t') || c = '\x7f'

/-- Passes over the rest of a comment, up to the end of its line. -/
def skipComment (text : List Char) : List Char := text.dropWhile fun c => !isControl c

/-- Passes over spaces and a comment, then over the end of the line or nothing if the file ends. -/
def endLine? (text : List Char) : Option (List Char) :=
  let start := skipSpaces text
  let rest :=
    match start with
    | '#' :: comment => skipComment comment
    | _ => start
  match rest with
  | [] => some []
  | '\n' :: after => some after
  | '\r' :: '\n' :: after => some after
  | _ => none

/-- Passes over spaces, ends of lines and comments; the first argument bounds the lines. -/
def skipLines : Nat → List Char → List Char
  | 0, text => text
  | fuel + 1, text =>
    match skipSpaces text with
    | '\n' :: rest => skipLines fuel rest
    | '\r' :: '\n' :: rest => skipLines fuel rest
    | '#' :: rest => skipLines fuel (skipComment rest)
    | other => other

def skipBlank (text : List Char) : List Char := skipLines (text.length + 1) text

/-! ## Strings -/

/-- The character that a letter after a backslash stands for. -/
def escaped? : Char → Option Char
  | 'b' => some '\x08'
  | 't' => some '\t'
  | 'n' => some '\n'
  | 'f' => some '\x0c'
  | 'r' => some '\r'
  | 'e' => some '\x1b'
  | '"' => some '"'
  | '\\' => some '\\'
  | _ => none

/-- The character with a code, if there is one. -/
def charOfCode? (digits : List Char) : Option Char :=
  if digits.all (isDigitBelow 16) then
    let code := valueInBase 16 digits
    if code.isValidChar then some (Char.ofNat code) else none
  else none

/-- Text in front of what was read after it. -/
def prepend (text : List Char) (after : Option (List Char × List Char)) :
    Option (List Char × List Char) :=
  after.map fun (chars, rest) => (text ++ chars, rest)

/-- One character, if there is one, in front of what was read after it. -/
def prepend? (c : Option Char) (after : Option (List Char × List Char)) :
    Option (List Char × List Char) :=
  c.bind fun c => prepend [c] after

/-- Reads a string in quotation marks after the first of them. -/
def readBasic : List Char → Option (List Char × List Char)
  | [] => none
  | '"' :: rest => some ([], rest)
  | '\\' :: 'x' :: a :: b :: rest => prepend? (charOfCode? [a, b]) (readBasic rest)
  | '\\' :: 'u' :: a :: b :: c :: d :: rest => prepend? (charOfCode? [a, b, c, d]) (readBasic rest)
  | '\\' :: 'U' :: a :: b :: c :: d :: e :: f :: g :: h :: rest =>
    prepend? (charOfCode? [a, b, c, d, e, f, g, h]) (readBasic rest)
  | '\\' :: c :: rest => prepend? (escaped? c) (readBasic rest)
  | c :: rest => if isControl c || c = '\\' then none else prepend [c] (readBasic rest)

/-- Reads a string in apostrophes after the first of them. -/
def readLiteral : List Char → Option (List Char × List Char)
  | [] => none
  | '\'' :: rest => some ([], rest)
  | c :: rest => if isControl c then none else prepend [c] (readLiteral rest)

/-- Whether only spaces stand before the end of the line. -/
def startsBlankLine (text : List Char) : Bool :=
  match skipSpaces text with
  | '\n' :: _ => true
  | '\r' :: '\n' :: _ => true
  | _ => false

/-- Reads a string in triple quotation marks after the first three.  With `trimming`, spaces and
ends of lines at the front do not count: that is so after a backslash at the end of a line. -/
def readLongBasic (trimming : Bool) : List Char → Option (List Char × List Char)
  | [] => none
  | '"' :: '"' :: '"' :: '"' :: '"' :: rest => some (['"', '"'], rest)
  | '"' :: '"' :: '"' :: '"' :: rest => some (['"'], rest)
  | '"' :: '"' :: '"' :: rest => some ([], rest)
  | '\\' :: 'x' :: a :: b :: rest => prepend? (charOfCode? [a, b]) (readLongBasic false rest)
  | '\\' :: 'u' :: a :: b :: c :: d :: rest =>
    prepend? (charOfCode? [a, b, c, d]) (readLongBasic false rest)
  | '\\' :: 'U' :: a :: b :: c :: d :: e :: f :: g :: h :: rest =>
    prepend? (charOfCode? [a, b, c, d, e, f, g, h]) (readLongBasic false rest)
  | '\\' :: c :: rest =>
    if startsBlankLine (c :: rest) then readLongBasic true (c :: rest)
    else prepend? (escaped? c) (readLongBasic false rest)
  | '\r' :: '\n' :: rest =>
    if trimming then readLongBasic true rest else prepend ['\r', '\n'] (readLongBasic false rest)
  | c :: rest =>
    if trimming && (c = '\n' || isSpace c) then readLongBasic true rest
    else if c = '\\' || (isControl c && c ≠ '\n') then none
    else prepend [c] (readLongBasic false rest)

/-- Reads a string in triple apostrophes after the first three. -/
def readLongLiteral : List Char → Option (List Char × List Char)
  | [] => none
  | '\'' :: '\'' :: '\'' :: '\'' :: '\'' :: rest => some (['\'', '\''], rest)
  | '\'' :: '\'' :: '\'' :: '\'' :: rest => some (['\''], rest)
  | '\'' :: '\'' :: '\'' :: rest => some ([], rest)
  | '\r' :: '\n' :: rest => prepend ['\r', '\n'] (readLongLiteral rest)
  | c :: rest =>
    if isControl c && c ≠ '\n' then none else prepend [c] (readLongLiteral rest)

/-- Drops the end of a line that follows the marks of a long string at once. -/
def dropFirstEnd : List Char → List Char
  | '\n' :: rest => rest
  | '\r' :: '\n' :: rest => rest
  | text => text

/-! ## Keys -/

def isKeyChar (c : Char) : Bool := c.isAlphanum || c = '_' || c = '-'

def readKey (text : List Char) : Option (String × List Char) :=
  match text with
  | '"' :: rest => (readBasic rest).map fun (key, after) => (String.ofList key, after)
  | '\'' :: rest => (readLiteral rest).map fun (key, after) => (String.ofList key, after)
  | _ =>
    let key := text.takeWhile isKeyChar
    if key.isEmpty then none else some (String.ofList key, text.dropWhile isKeyChar)

/-- Reads a key whose parts have points between them, and the spaces after it: the parts before the
last, and the last.  The first argument bounds the parts. -/
def readPath : Nat → List Char → Option (List String × String × List Char)
  | 0, _ => none
  | fuel + 1, text =>
    (readKey (skipSpaces text)).bind fun (key, afterKey) =>
      match skipSpaces afterKey with
      | '.' :: rest =>
        (readPath fuel rest).map fun (path, last, after) => (key :: path, last, after)
      | rest => some ([], key, rest)

/-- Reads a key, the equals sign after it and the spaces after that. -/
def readAssigned (text : List Char) : Option (List String × String × List Char) :=
  (readPath (text.length + 1) text).bind fun (path, key, rest) =>
    match rest with
    | '=' :: after => some (path, key, skipSpaces after)
    | _ => none

/-! ## Values -/

/-- How many arrays in brackets and tables in braces may be nested. -/
def maximumDepth : Nat := 80

def strValue (read : Option (List Char × List Char)) : Option (Value × List Char) :=
  read.map fun (chars, rest) => (.str (String.ofList chars), rest)

mutual

/-- Reads one value.  The first argument bounds the number of calls, the second the nesting. -/
def readValue : Nat → Nat → List Char → Option (Value × List Char)
  | 0, _, _ => none
  | fuel + 1, room, text =>
    match text with
    | '"' :: '"' :: '"' :: rest => strValue (readLongBasic false (dropFirstEnd rest))
    | '"' :: rest => strValue (readBasic rest)
    | '\'' :: '\'' :: '\'' :: rest => strValue (readLongLiteral (dropFirstEnd rest))
    | '\'' :: rest => strValue (readLiteral rest)
    | '[' :: rest =>
      if room = 0 then none
      else (readItems fuel (room - 1) rest).map fun (items, after) => (.arr items, after)
    | '{' :: rest =>
      if room = 0 then none
      else (readMembers fuel (room - 1) [] rest).map fun (members, after) =>
        (.table (Draft.memberValues members), after)
    | _ =>
      let (word, rest) := splitScalar text
      (scalar? word).map fun value => (value, rest)

/-- Reads the items of an array up to its closing bracket. -/
def readItems : Nat → Nat → List Char → Option (List Value × List Char)
  | 0, _, _ => none
  | fuel + 1, room, text =>
    match skipBlank text with
    | ']' :: rest => some ([], rest)
    | start =>
      match readValue fuel room start with
      | none => none
      | some (item, afterItem) =>
        match skipBlank afterItem with
        | ']' :: rest => some ([item], rest)
        | ',' :: rest =>
          (readItems fuel room rest).map fun (items, after) => (item :: items, after)
        | _ => none

/-- Reads the members of a table in braces up to its closing brace. -/
def readMembers :
    Nat → Nat → Draft.Members → List Char → Option (Draft.Members × List Char)
  | 0, _, _, _ => none
  | fuel + 1, room, known, text =>
    match skipBlank text with
    | '}' :: rest => some (known, rest)
    | start =>
      match readPath (start.length + 1) start with
      | none => none
      | some (path, key, afterKey) =>
        match skipBlank afterKey with
        | '=' :: afterEquals =>
          match readValue fuel room (skipBlank afterEquals) with
          | none => none
          | some (value, afterValue) =>
            match Draft.insert? value key path known, skipBlank afterValue with
            | some members, '}' :: rest => some (members, rest)
            | some members, ',' :: rest => readMembers fuel room members rest
            | _, _ => none
        | _ => none

end

/-! ## Lines -/

/-- Calls that suffice to read a text. -/
def readingFuel (text : List Char) : Nat := 2 * text.length + 2

/-- Reads the header of a table after its first bracket, up to the end of its line. -/
def readHeader (text : List Char) : Option (List String × String × List Char) :=
  (readPath (text.length + 1) text).bind fun (path, key, rest) =>
    match rest with
    | ']' :: after => (endLine? after).map fun next => (path, key, next)
    | _ => none

/-- Reads the header of a further table of an array after its first two brackets. -/
def readItemHeader (text : List Char) : Option (List String × String × List Char) :=
  (readPath (text.length + 1) text).bind fun (path, key, rest) =>
    match rest with
    | ']' :: ']' :: after => (endLine? after).map fun next => (path, key, next)
    | _ => none

/-- Reads lines into the tables read so far; `place` names the table that keys are added to.  The
first argument bounds the lines. -/
def readLines : Nat → List String → Draft.Members → List Char → Option Draft.Members
  | 0, _, _, _ => none
  | fuel + 1, place, root, text =>
    match skipBlank text with
    | [] => some root
    | '[' :: '[' :: rest =>
      (readItemHeader rest).bind fun (path, key, next) =>
        (Draft.openItem? path key root).bind fun root =>
          readLines fuel (path ++ [key]) root next
    | '[' :: rest =>
      (readHeader rest).bind fun (path, key, next) =>
        (Draft.openTable? path key root).bind fun root =>
          readLines fuel (path ++ [key]) root next
    | line =>
      (readAssigned line).bind fun (path, key, rest) =>
        (readValue (readingFuel rest) maximumDepth rest).bind fun (value, after) =>
          (Draft.below? (Draft.insert? value key path) place root).bind fun root =>
            (endLine? after).bind fun next => readLines fuel place root next

/-- A mark of the order of bytes at the front of a file does not count. -/
def dropOrderMark : List Char → List Char
  | '\ufeff' :: rest => rest
  | text => text

/-- Reads a whole file: the members of its outermost table. -/
def read? (text : String) : Option (List (String × Value)) :=
  let chars := dropOrderMark text.toList
  (readLines (chars.length + 1) [] [] chars).map Draft.memberValues

end JobGraph.Toml
