import JobGraph.Graph.Walk

/-!
# Selections

A selection takes part of a job: the tasks up to a target, those from a target on, and single tasks
left out.  It removes no task from the graph; it says which tasks are skipped.
-/

namespace JobGraph

/-- Which part of a job takes part in a run. -/
structure Selection where
  skip : List String
  runTo : Option String
  runFrom : Option String
  deriving DecidableEq, Repr

namespace Selection

def everything : Selection := ⟨[], none, none⟩

def isEmpty (selection : Selection) : Bool :=
  selection.skip.isEmpty && selection.runTo.isNone && selection.runFrom.isNone

/-- All names that a selection mentions, in the order in which they are checked. -/
def mentioned (selection : Selection) : List String :=
  selection.skip ++ selection.runTo.toList ++ selection.runFrom.toList

def keeps (selection : Selection) (graph : Graph) (name : String) : Bool :=
  (selection.runTo.all fun target =>
      name == target || decide (name ∈ graph.ancestorsOf target))
    && (selection.runFrom.all fun target =>
      name == target || decide (name ∈ graph.descendantsOf target))
    && !selection.skip.contains name

/-- The tasks that are skipped, or the first mentioned name that is no task. -/
def skipped (selection : Selection) (graph : Graph) : Except Error NameSet :=
  match selection.mentioned.find? fun name => !graph.contains name with
  | some name => .error (.taskNotFound name)
  | none => .ok (NameSet.ofList (graph.names.filter fun name => !selection.keeps graph name))

end Selection

end JobGraph
