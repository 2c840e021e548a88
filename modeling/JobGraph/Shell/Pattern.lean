import JobGraph.Shell.Token

/-!
# Patterns of the shell

A pattern is a list of characters, some of which are quoted.  A star that is not quoted stands for
any text and a question mark for any character.
-/

namespace JobGraph.Shell

/-- A character of a pattern, and whether it is quoted. -/
abbrev PatternChar := Char × Bool

/-- Whether a text fits a pattern; the first argument bounds the steps. -/
def fitsWithin : Nat → List PatternChar → List Char → Bool
  | 0, _, _ => false
  | _ + 1, [], text => text.isEmpty
  | fuel + 1, ('*', false) :: pattern, text =>
    fitsWithin fuel pattern text
      || match text with
        | [] => false
        | _ :: rest => fitsWithin fuel (('*', false) :: pattern) rest
  | _ + 1, _ :: _, [] => false
  | fuel + 1, ('?', false) :: pattern, _ :: rest => fitsWithin fuel pattern rest
  | fuel + 1, (c, _) :: pattern, d :: rest => c = d && fitsWithin fuel pattern rest

def fits (pattern : List PatternChar) (text : List Char) : Bool :=
  fitsWithin (pattern.length + text.length + 1) pattern text

/-- The text without the part at its start that fits a pattern, the shortest or the longest one. -/
def dropStart (longest : Bool) (pattern : List PatternChar) (text : List Char) : List Char :=
  let sizes := (List.range (text.length + 1)).filter fun size => fits pattern (text.take size)
  text.drop (((if longest then sizes.getLast? else sizes.head?)).getD 0)

/-- The text without the part at its end that fits a pattern, the shortest or the longest one. -/
def dropEnd (longest : Bool) (pattern : List PatternChar) (text : List Char) : List Char :=
  let sizes := (List.range (text.length + 1)).filter fun size => fits pattern (text.drop size)
  text.take (((if longest then sizes.head? else sizes.getLast?)).getD text.length)

end JobGraph.Shell
