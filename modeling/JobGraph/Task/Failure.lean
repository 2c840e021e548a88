/-!
# Failures

A failure is a text with the texts of its causes, the outermost first.
-/

namespace JobGraph

/-- A failure and its causes. -/
structure Failure where
  outermost : String
  causes : List String
  deriving DecidableEq, Repr

namespace Failure

def ofText (text : String) : Failure := ⟨text, []⟩

/-- A failure seen from outside: the text stands in front of those there are. -/
def within (failure : Failure) (text : String) : Failure :=
  ⟨text, failure.outermost :: failure.causes⟩

def oneLine (failure : Failure) : String :=
  String.intercalate ": " (failure.outermost :: failure.causes)

end Failure

end JobGraph
