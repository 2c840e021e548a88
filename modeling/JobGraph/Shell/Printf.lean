import JobGraph.Json.Tree
import JobGraph.Text.Bytes

/-!
# Escapes and formats

What the commands `echo` and `printf` put out.  A backslash with up to three octal digits stands for
a byte, so the result is bytes and need not be text.
-/

namespace JobGraph.Shell

def isOctal (c : Char) : Bool := '0' ≤ c && c ≤ '7'

def octalByte (digits : List Char) : UInt8 :=
  UInt8.ofNat (digits.foldl (fun total digit => 8 * total + (digit.toNat - 48)) 0)

def charBytes (c : Char) : List UInt8 := Text.encodeUtf8 (String.singleton c)

/-- The byte that a letter after a backslash stands for. -/
def letterByte? : Char → Option UInt8
  | 'a' => some 7
  | 'b' => some 8
  | 'f' => some 12
  | 'n' => some 10
  | 'r' => some 13
  | 't' => some 9
  | 'v' => some 11
  | '\\' => some 92
  | _ => none

/-- The bytes of an escape after its backslash, and the rest of the text.  With `zeroFirst` an octal
number begins with a zero that is not counted. -/
def readEscape (zeroFirst : Bool) (text : List Char) : List UInt8 × List Char :=
  match text with
  | [] => ([92], [])
  | c :: rest =>
    if zeroFirst && c = '0' then
      let digits := (rest.take 3).takeWhile isOctal
      ([octalByte digits], rest.drop digits.length)
    else if !zeroFirst && isOctal c then
      let digits := (text.take 3).takeWhile isOctal
      ([octalByte digits], text.drop digits.length)
    else
      match letterByte? c with
      | some byte => ([byte], rest)
      | none => (92 :: charBytes c, rest)

/-- The bytes of a text with escapes; the flag says whether `\c` ended the output.  The first
argument bounds the number of steps. -/
def unescape : Nat → List Char → List UInt8 × Bool
  | 0, _ => ([], false)
  | _ + 1, [] => ([], false)
  | _ + 1, '\\' :: 'c' :: _ => ([], true)
  | budget + 1, '\\' :: rest =>
    let (bytes, after) := readEscape true rest
    let (others, ended) := unescape budget after
    (bytes ++ others, ended)
  | budget + 1, c :: rest =>
    let (others, ended) := unescape budget rest
    (charBytes c ++ others, ended)

def echoBytes (arguments : List String) : List UInt8 :=
  let (newline, arguments) :=
    match arguments with
    | "-n" :: rest => (false, rest)
    | _ => (true, arguments)
  let content := (String.intercalate " " arguments).toList
  let (bytes, ended) := unescape (content.length + 1) content
  if newline && !ended then bytes ++ [10] else bytes

/-- Fills a field up to a width; `left` puts the content in front. -/
def padField (width : Nat) (left zero : Bool) (content : List UInt8) : List UInt8 :=
  let missing := width - content.length
  if left then content ++ List.replicate missing 32
  else List.replicate missing (if zero then 48 else 32) ++ content

/-- The whole number at the front of a text, zero if there is none. -/
def leadingInt (text : String) : Int :=
  match text.toList with
  | '-' :: digits => -(Text.digitsValue (digits.takeWhile Char.isDigit) : Int)
  | '+' :: digits => (Text.digitsValue (digits.takeWhile Char.isDigit) : Int)
  | digits => (Text.digitsValue (digits.takeWhile Char.isDigit) : Int)

/-- The precision at the front of a text, if there is one, and what comes after it. -/
def readPrecision : List Char → Option Nat × List Char
  | '.' :: rest =>
    let digits := rest.takeWhile Char.isDigit
    (some (Text.digitsValue digits), rest.drop digits.length)
  | rest => (none, rest)

/-- One pass over a format: the bytes, the arguments that are left, and whether the output ended.
The first argument bounds the number of steps. -/
def formatOnce : Nat → List Char → List String → List UInt8 × List String × Bool
  | 0, _, arguments => ([], arguments, false)
  | _ + 1, [], arguments => ([], arguments, false)
  | _ + 1, '\\' :: 'c' :: _, arguments => ([], arguments, true)
  | budget + 1, '\\' :: rest, arguments =>
    let (bytes, after) := readEscape false rest
    let (others, left, ended) := formatOnce budget after arguments
    (bytes ++ others, left, ended)
  | budget + 1, '%' :: '%' :: rest, arguments =>
    let (others, left, ended) := formatOnce budget rest arguments
    (37 :: others, left, ended)
  | budget + 1, '%' :: rest, arguments =>
    let flags := rest.takeWhile fun c => c = '-' || c = '0' || c = '+' || c = ' '
    let afterFlags := rest.drop flags.length
    let width := afterFlags.takeWhile Char.isDigit
    let argument := arguments.headD ""
    let pad := padField (Text.digitsValue width) (flags.contains '-') (flags.contains '0')
    let (longest, afterPrecision) := readPrecision (afterFlags.drop width.length)
    match afterPrecision with
    | 's' :: after =>
      let (others, left, ended) := formatOnce budget after arguments.tail
      let bytes := Text.encodeUtf8 argument
      (pad (bytes.take (longest.getD bytes.length)) ++ others, left, ended)
    | 'b' :: after =>
      let (bytes, stop) := unescape (argument.length + 1) argument.toList
      if stop then (bytes, arguments.tail, true)
      else
        let (others, left, ended) := formatOnce budget after arguments.tail
        (pad bytes ++ others, left, ended)
    | 'c' :: after =>
      let (others, left, ended) := formatOnce budget after arguments.tail
      (pad ((argument.toList.take 1).flatMap charBytes) ++ others, left, ended)
    | kind :: after =>
      let (others, left, ended) := formatOnce budget after arguments.tail
      if kind = 'd' ∨ kind = 'i' ∨ kind = 'u' then
        (pad (Text.encodeUtf8 (toString (leadingInt argument))) ++ others, left, ended)
      else if kind = 'x' then
        let digits := Nat.toDigits 16 (leadingInt argument).toNat
        (pad (digits.flatMap charBytes) ++ others, left, ended)
      else if kind = 'o' then
        let digits := Nat.toDigits 8 (leadingInt argument).toNat
        (pad (digits.flatMap charBytes) ++ others, left, ended)
      else (others, left, ended)
    | [] => ([37], arguments, false)
  | budget + 1, c :: rest, arguments =>
    let (others, left, ended) := formatOnce budget rest arguments
    (charBytes c ++ others, left, ended)

/-- Passes over a format until the arguments are used up; the first argument bounds the passes. -/
def formatAll : Nat → List Char → List String → List UInt8
  | 0, _, _ => []
  | passes + 1, format, arguments =>
    let (bytes, left, ended) := formatOnce (format.length + 1) format arguments
    if ended || left.isEmpty || left.length = arguments.length then bytes
    else bytes ++ formatAll passes format left

def printfBytes (format : String) (arguments : List String) : List UInt8 :=
  formatAll (arguments.length + 1) format.toList arguments

end JobGraph.Shell
