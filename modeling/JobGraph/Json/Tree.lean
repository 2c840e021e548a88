import JobGraph.Json.Value
import JobGraph.Text.Digits

/-!
# Reading text into trees

A tree is a text as it was written: members of an object in their order, with repeated keys, and
numbers by their digits.  What a tree means is decided afterwards, so one reader serves plain
values, records with fixed fields and parts that are skipped.

* `Tree.read?` reads a whole text.
* `Tree.value?` gives the plain value: the last of two equal keys counts, numbers are made, and the
  nesting is limited.
* `splitMembers?` and `splitItems?` cut the text of an object or array into the texts of its parts,
  and `keepMembers?` leaves out those that are passed over.
-/

namespace JobGraph.Json

open Text (digitsValue hexValue?)

/-- The written form of a number: sign, digits before the point, digits after it, exponent. -/
structure Numeral where
  negative : Bool
  whole : List Char
  fraction : Option (List Char)
  exponent : Option Int
  deriving DecidableEq, Repr

/-- A text as it was written.  A string is `none` if it names half of a surrogate pair alone. -/
inductive Tree where
  | null
  | bool (flag : Bool)
  | number (numeral : Numeral)
  | str (text : Option String)
  | arr (items : List Tree)
  | obj (members : List (Option String × Tree))
  deriving Repr, Inhabited

def maximumDepth : Nat := 127

/-! ## Characters -/

/-- Whether a character may stand between the parts of a text. -/
def isBlank (c : Char) : Bool := c = ' ' || c = '\t' || c = '\n' || c = '\r'

def skipBlank : List Char → List Char := List.dropWhile isBlank

/-- The character after a backslash that stands for one character. -/
def shortEscape? : Char → Option Char
  | '"' => some '"'
  | '\\' => some '\\'
  | '/' => some '/'
  | 'b' => some '\x08'
  | 'f' => some '\x0c'
  | 'n' => some '\n'
  | 'r' => some '\r'
  | 't' => some '\t'
  | _ => none

/-- A unit of a string: a character, or half of a surrogate pair. -/
inductive StringUnit where
  | scalar (c : Char)
  | surrogate (half : Nat)
  deriving DecidableEq, Repr

/-- The unit that four hexadecimal digits name. -/
def unitOfCode (code : Nat) : StringUnit :=
  if 0xD800 ≤ code ∧ code < 0xE000 then .surrogate code else .scalar (Char.ofNat code)

/-- The characters of the units of a string: two halves of a pair in order make one character, and
a half alone makes none. -/
def joinUnits : List StringUnit → Option (List Char)
  | [] => some []
  | .scalar c :: rest => (joinUnits rest).map (c :: ·)
  | .surrogate high :: .surrogate low :: rest =>
    if high < 0xDC00 ∧ 0xDC00 ≤ low then
      (joinUnits rest).map
        (Char.ofNat (0x10000 + (high - 0xD800) * 0x400 + (low - 0xDC00)) :: ·)
    else none
  | .surrogate _ :: _ => none

/-- Reads a string up to its closing quotation mark. -/
def readUnits : List Char → Option (List StringUnit × List Char)
  | [] => none
  | '"' :: rest => some ([], rest)
  | '\\' :: 'u' :: a :: b :: c :: d :: rest =>
    match hexValue? a, hexValue? b, hexValue? c, hexValue? d with
    | some a, some b, some c, some d =>
      (readUnits rest).map fun (units, after) =>
        (unitOfCode (((a * 16 + b) * 16 + c) * 16 + d) :: units, after)
    | _, _, _, _ => none
  | '\\' :: c :: rest =>
    match shortEscape? c with
    | some plain =>
      (readUnits rest).map fun (units, after) => (.scalar plain :: units, after)
    | none => none
  | c :: rest =>
    if c < ' ' ∨ c = '\\' then none
    else (readUnits rest).map fun (units, after) => (.scalar c :: units, after)

def readString (text : List Char) : Option (Option String × List Char) :=
  (readUnits text).map fun (units, rest) => ((joinUnits units).map String.ofList, rest)

/-! ## Numbers -/

/-- Reads the digits before the point: a zero alone, or digits that do not start with one. -/
def readWhole : List Char → Option (List Char × List Char)
  | '0' :: rest => if (rest.takeWhile Char.isDigit).isEmpty then some (['0'], rest) else none
  | text =>
    let digits := text.takeWhile Char.isDigit
    if digits.isEmpty then none else some (digits, text.dropWhile Char.isDigit)

/-- Reads the digits after the point, if there is a point. -/
def readFraction : List Char → Option (Option (List Char) × List Char)
  | '.' :: rest =>
    let digits := rest.takeWhile Char.isDigit
    if digits.isEmpty then none else some (some digits, rest.dropWhile Char.isDigit)
  | text => some (none, text)

/-- Reads the digits of an exponent after its sign. -/
def readExponentDigits (negative : Bool) (text : List Char) :
    Option (Option Int × List Char) :=
  let digits := text.takeWhile Char.isDigit
  if digits.isEmpty then none
  else
    let size : Int := digitsValue digits
    some (some (if negative then -size else size), text.dropWhile Char.isDigit)

def readExponent : List Char → Option (Option Int × List Char)
  | 'e' :: '+' :: rest | 'E' :: '+' :: rest => readExponentDigits false rest
  | 'e' :: '-' :: rest | 'E' :: '-' :: rest => readExponentDigits true rest
  | 'e' :: rest | 'E' :: rest => readExponentDigits false rest
  | text => some (none, text)

def readNumeral (text : List Char) : Option (Numeral × List Char) := do
  let (negative, unsigned) :=
    match text with
    | '-' :: rest => (true, rest)
    | _ => (false, text)
  let (whole, afterWhole) ← readWhole unsigned
  let (fraction, afterFraction) ← readFraction afterWhole
  let (exponent, rest) ← readExponent afterFraction
  some (⟨negative, whole, fraction, exponent⟩, rest)

/-- The value of a number: a whole number that fits is kept as such, every other number is the
nearest floating point number, and one beyond all finite numbers has no value. -/
def Numeral.value? (numeral : Numeral) : Option Value :=
  let fraction := numeral.fraction.getD []
  let nearest :=
    Binary64.ofDecimal numeral.negative (digitsValue (numeral.whole ++ fraction))
      (numeral.exponent.getD 0 - fraction.length)
  let float? := if nearest.isFinite then some (Value.float nearest) else none
  match numeral.fraction, numeral.exponent with
  | none, none =>
    let size := digitsValue numeral.whole
    if numeral.negative then
      if size ≠ 0 ∧ size ≤ twoTo 63 then some (.int (-size)) else float?
    else if size < twoTo 64 then some (.int size)
    else float?
  | _, _ => float?

/-! ## Trees -/

mutual

/-- Reads one value; the first argument bounds the number of calls. -/
def readTree : Nat → List Char → Option (Tree × List Char)
  | 0, _ => none
  | fuel + 1, text =>
    match skipBlank text with
    | 'n' :: 'u' :: 'l' :: 'l' :: rest => some (.null, rest)
    | 't' :: 'r' :: 'u' :: 'e' :: rest => some (.bool true, rest)
    | 'f' :: 'a' :: 'l' :: 's' :: 'e' :: rest => some (.bool false, rest)
    | '"' :: rest => (readString rest).map fun (text, after) => (.str text, after)
    | '[' :: rest =>
      match skipBlank rest with
      | ']' :: after => some (.arr [], after)
      | items => (readItems fuel items).map fun (items, after) => (.arr items, after)
    | '{' :: rest =>
      match skipBlank rest with
      | '}' :: after => some (.obj [], after)
      | members => (readMembers fuel members).map fun (members, after) => (.obj members, after)
    | other => (readNumeral other).map fun (numeral, after) => (.number numeral, after)

/-- Reads the items of an array up to its closing bracket. -/
def readItems : Nat → List Char → Option (List Tree × List Char)
  | 0, _ => none
  | fuel + 1, text =>
    match readTree fuel text with
    | none => none
    | some (item, afterItem) =>
      match skipBlank afterItem with
      | ']' :: rest => some ([item], rest)
      | ',' :: rest => (readItems fuel rest).map fun (items, after) => (item :: items, after)
      | _ => none

/-- Reads the members of an object up to its closing brace. -/
def readMembers : Nat → List Char → Option (List (Option String × Tree) × List Char)
  | 0, _ => none
  | fuel + 1, text =>
    match skipBlank text with
    | '"' :: afterQuote =>
      match readString afterQuote with
      | none => none
      | some (key, afterKey) =>
        match skipBlank afterKey with
        | ':' :: afterColon =>
          match readTree fuel afterColon with
          | none => none
          | some (value, afterValue) =>
            match skipBlank afterValue with
            | '}' :: rest => some ([(key, value)], rest)
            | ',' :: rest =>
              (readMembers fuel rest).map fun (members, after) => ((key, value) :: members, after)
            | _ => none
        | _ => none
    | _ => none

end

/-- Calls that suffice to read a text: each bracket takes two, each other part one. -/
def readingFuel (text : List Char) : Nat := 2 * text.length + 2

/-- Reads a whole text, with nothing but blanks after the value. -/
def Tree.read? (text : List Char) : Option Tree :=
  match readTree (readingFuel text) text with
  | some (tree, rest) => if (skipBlank rest).isEmpty then some tree else none
  | none => none

/-! ## Texts of parts -/

/-- The text of the value at the front, without the blanks before it, and what follows it. -/
def splitValue? (text : List Char) : Option (List Char × List Char) :=
  let start := skipBlank text
  (readTree (readingFuel start) start).map fun (_, rest) =>
    (start.take (start.length - rest.length), rest)

/-- The members of an object from its first key on, each with the text of its value. -/
def splitMembersFrom : Nat → List Char → Option (List (Option String × List Char) × List Char)
  | 0, _ => none
  | fuel + 1, text =>
    match skipBlank text with
    | '"' :: afterQuote =>
      match readString afterQuote with
      | none => none
      | some (key, afterKey) =>
        match skipBlank afterKey with
        | ':' :: afterColon =>
          match splitValue? afterColon with
          | none => none
          | some (value, afterValue) =>
            match skipBlank afterValue with
            | '}' :: rest => some ([(key, value)], rest)
            | ',' :: rest =>
              (splitMembersFrom fuel rest).map fun (members, after) =>
                ((key, value) :: members, after)
            | _ => none
        | _ => none
    | _ => none

/-- The items of an array from its first item on, each by its text. -/
def splitItemsFrom : Nat → List Char → Option (List (List Char) × List Char)
  | 0, _ => none
  | fuel + 1, text =>
    match splitValue? text with
    | none => none
    | some (item, afterItem) =>
      match skipBlank afterItem with
      | ']' :: rest => some ([item], rest)
      | ',' :: rest => (splitItemsFrom fuel rest).map fun (items, after) => (item :: items, after)
      | _ => none

/-- Keeps a result only if nothing but blanks follows it. -/
def whole? {α : Type} : Option (α × List Char) → Option α
  | some (result, rest) => if (skipBlank rest).isEmpty then some result else none
  | none => none

/-- The members of an object, each with the text of its value. -/
def splitMembers? (text : List Char) : Option (List (Option String × List Char)) :=
  match skipBlank text with
  | '{' :: rest =>
    match skipBlank rest with
    | '}' :: after => whole? (some ([], after))
    | members => whole? (splitMembersFrom (members.length + 1) members)
  | _ => none

/-- The items of an array, each by its text. -/
def splitItems? (text : List Char) : Option (List (List Char)) :=
  match skipBlank text with
  | '[' :: rest =>
    match skipBlank rest with
    | ']' :: after => whole? (some ([], after))
    | items => whole? (splitItemsFrom (items.length + 1) items)
  | _ => none

/-- The text of an object from its first key on, with `null` for the values of members whose keys
are not kept. -/
def keepMembersFrom (kept : List String) : Nat → List Char → Option (List Char)
  | 0, _ => none
  | fuel + 1, text =>
    match skipBlank text with
    | '"' :: afterQuote =>
      match readString afterQuote with
      | none => none
      | some (key, afterKey) =>
        let written := '"' :: afterQuote.take (afterQuote.length - afterKey.length)
        match skipBlank afterKey with
        | ':' :: afterColon =>
          match splitValue? afterColon with
          | none => none
          | some (value, afterValue) =>
            let value := if key.any kept.contains then value else "null".toList
            match skipBlank afterValue with
            | ',' :: rest =>
              (keepMembersFrom kept fuel rest).map fun others =>
                written ++ ':' :: value ++ ',' :: others
            | rest => some (written ++ ':' :: value ++ rest)
        | _ => none
    | _ => none

/-- The text of an object with `null` for the values of members whose keys are not kept. -/
def keepMembers? (kept : List String) (text : List Char) : Option (List Char) :=
  match skipBlank text with
  | '{' :: rest => (keepMembersFrom kept (rest.length + 1) rest).map ('{' :: ·)
  | _ => none

/-! ## Plain values -/

/-- The key of an object that holds the text of a value in place of the value itself. -/
def rawKey : String := "$serde_json::private::RawValue"

namespace Tree

/-- Whether the members are those of an object that stands for a value by its text: the first key
decides. -/
def isRaw : List (Option String × Tree) → Bool
  | (some key, _) :: _ => key == rawKey
  | _ => false

/-- The text of the value that an object stands for; no other member may stand beside it. -/
def rawText? : List (Option String × Tree) → Option String
  | [(_, .str text)] => text
  | _ => none

mutual

/-- The plain value of a tree that nests at most `room` arrays and objects; `raw?` reads the text
that stands in place of a value. -/
def valueWith? (raw? : String → Option Value) : Nat → Tree → Option Value
  | _, .null => some .null
  | _, .bool flag => some (.bool flag)
  | _, .number numeral => numeral.value?
  | _, .str text => text.map .str
  | room, .arr items =>
    if room = 0 then none else (itemsWith? raw? (room - 1) items).map .arr
  | room, .obj members =>
    if room = 0 then none
    else if isRaw members then (rawText? members).bind raw?
    else (membersWith? raw? (room - 1) members []).map .obj

def itemsWith? (raw? : String → Option Value) : Nat → List Tree → Option (List Value)
  | _, [] => some []
  | room, item :: rest =>
    match valueWith? raw? room item, itemsWith? raw? room rest with
    | some item, some rest => some (item :: rest)
    | _, _ => none

/-- Adds members to those already read; a repeated key takes the place of the earlier one. -/
def membersWith? (raw? : String → Option Value) :
    Nat → List (Option String × Tree) → List (String × Value) → Option (List (String × Value))
  | _, [], known => some known
  | room, (key, value) :: rest, known =>
    match key, valueWith? raw? room value with
    | some key, some value => membersWith? raw? room rest (Entries.insert key value known)
    | _, _ => none

end

/-- Reads the text that stands in place of a value; the first argument bounds how many texts stand
within one another. -/
def readRaw? : Nat → String → Option Value
  | 0, _ => none
  | levels + 1, text =>
    (Tree.read? text.toList).bind (valueWith? (readRaw? levels) maximumDepth)

/-- The plain value of a tree that nests at most `room` arrays and objects.  A text within a text is
shorter than the text around it. -/
def valueWithin? (room : Nat) (tree : Tree) : Option Value :=
  tree.valueWith? (fun text => readRaw? (text.length + 1) text) room

def value? (tree : Tree) : Option Value := tree.valueWithin? maximumDepth

mutual

/-- Whether every string and every number of a tree can be held, and at most `room` arrays and
objects are nested. -/
def holdsWithin : Nat → Tree → Bool
  | _, .null | _, .bool _ => true
  | _, .number numeral => numeral.value?.isSome
  | _, .str text => text.isSome
  | room, .arr items => room != 0 && itemsHoldWithin (room - 1) items
  | room, .obj members => room != 0 && membersHoldWithin (room - 1) members

def itemsHoldWithin : Nat → List Tree → Bool
  | _, [] => true
  | room, item :: rest => holdsWithin room item && itemsHoldWithin room rest

def membersHoldWithin : Nat → List (Option String × Tree) → Bool
  | _, [] => true
  | room, (key, value) :: rest =>
    key.isSome && holdsWithin room value && membersHoldWithin room rest

end

end Tree

def Value.read? (text : List Char) : Option Value := (Tree.read? text).bind Tree.value?

end JobGraph.Json
