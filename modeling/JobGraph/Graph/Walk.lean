import JobGraph.Graph.Basic
import JobGraph.NameSet

/-!
# Walks

All tasks that can be reached from a task along its dependencies, or along its dependents.
-/

namespace JobGraph.Graph

/-- Collects what can be reached from the tasks on the stack through tasks not yet met. -/
def reachFrom (next : String → List String) (unseen : List String) (found : NameSet) :
    List String → NameSet
  | [] => found
  | name :: stack =>
    if _met : name ∈ unseen then
      reachFrom next (unseen.erase name) (found.insert name) (next name ++ stack)
    else reachFrom next unseen found stack
  termination_by stack => (unseen.length, stack.length)
  decreasing_by
    · apply Prod.Lex.left
      have positive := List.length_pos_of_mem _met
      simp only [List.length_erase_of_mem _met]
      omega
    · apply Prod.Lex.right
      simp

/-- Everything that can be reached from a task by one or more steps. -/
def reach (graph : Graph) (next : String → List String) (name : String) : NameSet :=
  reachFrom next graph.names .empty (next name)

/-- The tasks that a task depends on, directly or through others. -/
def ancestorsOf (graph : Graph) (name : String) : NameSet :=
  graph.reach graph.dependenciesOf name

/-- The tasks that depend on a task, directly or through others. -/
def descendantsOf (graph : Graph) (name : String) : NameSet :=
  graph.reach graph.dependentsOf name

end JobGraph.Graph
