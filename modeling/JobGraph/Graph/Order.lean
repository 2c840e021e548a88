import JobGraph.Task.Basic

/-!
# Dependency order and cycles

Edges lead from a dependency to the tasks that list it.  `finishingOrder` walks along the edges
depth first from every task and lists the tasks by the time at which the walk is done with them,
the last one first.  Without a cycle this order puts every task after its dependencies;
`firstUnordered?` looks for the first task of which it does not, and names the dependency that
comes later: that task lies on a cycle.
-/

namespace JobGraph.Graph

/-- A list without its repetitions; the first occurrence stays. -/
def distinct : List String → List String
  | [] => []
  | name :: rest => name :: (distinct rest).filter (· ≠ name)

/-- The tasks of a list that name a dependency, once for each time they do. -/
def dependentsIn (tasks : List Task) (name : String) : List String :=
  tasks.flatMap fun task => (task.dependsOn.filter (· = name)).map fun _ => task.name

/-- The dependents of a task, each once. -/
def successors (tasks : List Task) (name : String) : List String :=
  distinct (dependentsIn tasks name)

/-- The dependencies of a task, each once. -/
def predecessors (tasks : List Task) (name : String) : List String :=
  match tasks.find? fun task => task.name == name with
  | some task => distinct task.dependsOn
  | none => []

/-- The walk from a stack of tasks: the tasks not yet met, and those it is done with, the last one
first.  A task met for the first time stays on the stack below its successors, so that it is done
after them. -/
def finishFrom (next : String → List String) (unseen finished : List String) :
    List String → List String × List String
  | [] => (unseen, finished)
  | name :: stack =>
    if _met : name ∈ unseen then
      let unseen' := unseen.erase name
      finishFrom next unseen' finished
        (((next name).filter (· ∈ unseen')).reverse ++ name :: stack)
    else if name ∈ finished then finishFrom next unseen finished stack
    else finishFrom next unseen (name :: finished) stack
  termination_by stack => (unseen.length, stack.length)
  decreasing_by
    · apply Prod.Lex.left
      have positive := List.length_pos_of_mem _met
      simp only [List.length_erase_of_mem _met]
      omega
    · apply Prod.Lex.right
      simp
    · apply Prod.Lex.right
      simp

/-- The walk from each task of a list in turn. -/
def finishAll (next : String → List String) :
    List String → List String × List String → List String × List String
  | [], walked => walked
  | name :: rest, (unseen, finished) =>
    finishAll next rest (if name ∈ unseen then finishFrom next unseen finished [name]
      else (unseen, finished))

/-- The tasks by the time at which the walk is done with them, the last one first. -/
def finishingOrder (names : List String) (next : String → List String) : List String :=
  (finishAll next names (names, [])).2

/-- The first task of an order with a dependency that is not listed before it; of several such
dependencies the last one is named. -/
def firstUnordered? (previous : String → List String) (earlier : List String) :
    List String → Option String
  | [] => none
  | name :: rest =>
    match ((previous name).filter (· ∉ name :: earlier)).getLast? with
    | some later => some later
    | none => firstUnordered? previous (name :: earlier) rest

/-- A task on a cycle, if there is a cycle. -/
def cycleMember? (names : List String) (next previous : String → List String) : Option String :=
  firstUnordered? previous [] (finishingOrder names next)

end JobGraph.Graph
