import JobGraph.Error
import JobGraph.Graph.Basic
import JobGraph.Task.Failure

/-!
# Variants of tasks

A registry knows how to make a task of each variant from its parameters.  `checkVariants` tries all
tasks of a job before it runs and tells every problem at once.
-/

namespace JobGraph

/-- Makes a task of one variant from its parameters. -/
abbrev Factory (α : Type) := Json.Value → Except Failure α

/-- The variants that tasks can have. -/
structure Registry (α : Type) where
  factories : KeyMap (Factory α)

namespace Registry

variable {α : Type}

def empty : Registry α := ⟨.empty⟩

def contains (registry : Registry α) (variant : String) : Bool :=
  registry.factories.contains variant

def variants (registry : Registry α) : List String := registry.factories.keys

/-- Adds a variant; a name is taken only once. -/
def register (registry : Registry α) (variant : String) (factory : Factory α) :
    Except Error (Registry α) :=
  if registry.contains variant then .error (.job (.repeatedVariant variant))
  else .ok ⟨registry.factories.insert variant factory⟩

def construct (registry : Registry α) (variant : String) (parameters : Json.Value) :
    Except Failure α :=
  match registry.factories.find? variant with
  | some factory => factory parameters
  | none => .error (.ofText s!"unknown task variant '{variant}'")

/-- What keeps a task from being made, if anything does. -/
def problem? (registry : Registry α) (task : Task) : Option VariantProblem :=
  if registry.contains task.variant then
    match registry.construct task.variant task.parameters with
    | .ok _ => none
    | .error failure => some (.invalidParameters task.name failure.oneLine)
  else some (.unknownVariant task.name task.variant)

/-- Every problem of the tasks of a graph, by name of the task. -/
def problems (registry : Registry α) (graph : Graph) : List VariantProblem :=
  graph.tasks.filterMap registry.problem?

/-- Succeeds if every task can be made; one problem is told as it is, several as a list. -/
def checkVariants (registry : Registry α) (graph : Graph) : Except Error Unit :=
  match registry.problems graph with
  | [] => .ok ()
  | [problem] => .error (.variant problem)
  | several => .error (.job (.severalVariants several))

def describe (registry : Registry α) : String :=
  "TaskRegistry \x7b variants: " ++ Text.quotedList registry.variants ++ " \x7d"

end Registry

end JobGraph
