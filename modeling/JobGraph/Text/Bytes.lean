/-!
# Text as bytes

Text is written as UTF-8.  `decodeUtf8?` gives the text of bytes, if they are the UTF-8 of one, and
`octets` makes a character of each byte, whatever the bytes are.  `lines` cuts bytes at the ends of
lines.
-/

namespace JobGraph.Text

def encodeUtf8 (text : String) : List UInt8 := text.toUTF8.toList

def decodeUtf8? (bytes : List UInt8) : Option String :=
  String.fromUTF8? ⟨bytes.toArray⟩

/-- Bytes as characters, one for each byte. -/
def octets (bytes : List UInt8) : List Char := bytes.map fun byte => Char.ofNat byte.toNat

/-- The bytes of characters that stand for one byte each. -/
def ofOctets (text : List Char) : List UInt8 := text.map fun c => UInt8.ofNat c.toNat

/-- A line without a carriage return at its end. -/
def dropReturn (line : List UInt8) : List UInt8 :=
  match line.reverse with
  | 13 :: rest => rest.reverse
  | _ => line

/-- The lines of bytes, as texts, up to the first that is not text.  The line begun so far is given
backwards; what stands after the last end of a line is a line of its own. -/
def linesFrom (line : List UInt8) : List UInt8 → List String
  | [] => if line.isEmpty then [] else (decodeUtf8? line.reverse).toList
  | byte :: rest =>
    if byte = 10 then
      match decodeUtf8? (dropReturn line.reverse) with
      | some text => text :: linesFrom [] rest
      | none => []
    else linesFrom (byte :: line) rest

/-- The lines of bytes, as texts, up to the first that is not text. -/
def lines (bytes : List UInt8) : List String := linesFrom [] bytes

end JobGraph.Text
