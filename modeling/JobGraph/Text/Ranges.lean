/-!
# Ranges of code points

A table of a character property is a list of ranges of code points, both ends included.
-/

namespace JobGraph.Text

/-- Whether a code point lies in one of the ranges. -/
def inRanges (ranges : List (Nat × Nat)) (c : Char) : Bool :=
  ranges.any fun range => range.1 ≤ c.toNat && c.toNat ≤ range.2

end JobGraph.Text
