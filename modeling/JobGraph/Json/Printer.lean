import JobGraph.Json.Value

/-!
# Writing values

The compact text of a value has no blanks.  `Value.write` puts it in front of the text that
follows, so writing takes time proportional to the text.  Inside a string only the quotation mark,
the backslash and the control characters below the space are escaped.
-/

namespace JobGraph.Json

/-- The digit of a number below sixteen, in lower case. -/
def hexDigit (n : Nat) : Char := Nat.digitChar (n % 16)

def escapeChar (c : Char) : List Char :=
  if c = '"' then ['\\', '"']
  else if c = '\\' then ['\\', '\\']
  else if c = '\x08' then ['\\', 'b']
  else if c = '\t' then ['\\', 't']
  else if c = '\n' then ['\\', 'n']
  else if c = '\x0c' then ['\\', 'f']
  else if c = '\r' then ['\\', 'r']
  else if c < ' ' then ['\\', 'u', '0', '0', hexDigit (c.toNat / 16), hexDigit c.toNat]
  else [c]

/-- A quoted string in front of the text that follows. -/
def writeString (text : String) (rest : List Char) : List Char :=
  '"' :: text.toList.foldr (fun c following => escapeChar c ++ following) ('"' :: rest)

namespace Value

mutual

/-- The compact text of a value in front of the text that follows. -/
def write : Value → List Char → List Char
  | .null, rest => 'n' :: 'u' :: 'l' :: 'l' :: rest
  | .bool true, rest => 't' :: 'r' :: 'u' :: 'e' :: rest
  | .bool false, rest => 'f' :: 'a' :: 'l' :: 's' :: 'e' :: rest
  | .int number, rest => intChars number ++ rest
  | .float number, rest => number.write Binary64.dataLayout ++ rest
  | .str text, rest => writeString text rest
  | .arr items, rest => '[' :: writeItems items (']' :: rest)
  | .obj members, rest => '{' :: writeMembers members ('}' :: rest)

/-- The items of an array, with commas between them. -/
def writeItems : List Value → List Char → List Char
  | [], rest => rest
  | item :: others, rest =>
    write item (if others.isEmpty then rest else ',' :: writeItems others rest)

/-- The members of an object, with commas between them. -/
def writeMembers : List (String × Value) → List Char → List Char
  | [], rest => rest
  | (key, value) :: others, rest =>
    writeString key
      (':' :: write value (if others.isEmpty then rest else ',' :: writeMembers others rest))

end

def compact (value : Value) : String := String.ofList (value.write [])

end Value

end JobGraph.Json
