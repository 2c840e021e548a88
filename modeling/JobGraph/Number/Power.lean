/-!
# Powers

The powers of two and of ten that formats and limits are made of.
-/

namespace JobGraph

abbrev twoTo (exponent : Nat) : Nat := Nat.pow 2 exponent

abbrev tenTo (exponent : Nat) : Nat := Nat.pow 10 exponent

end JobGraph
