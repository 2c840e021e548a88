import JobGraph.Error
import JobGraph.Graph.Order

/-!
# Job graphs

The tasks of a job, sorted by name, with the edges from each task to its dependencies.
`Graph.ofTasks` accepts a list of tasks if their names differ, every dependency is the name of
another task, and no task depends on itself through others; otherwise it says what stands in the
way, the first of these causes first.
-/

namespace JobGraph

/-- The tasks of a job, sorted by name. -/
structure Graph where
  tasks : List Task
  deriving Repr, DecidableEq

namespace Graph

/-- The task of a name in a list of tasks. -/
def findTask? (tasks : List Task) (name : String) : Option Task :=
  tasks.find? fun task => task.name == name

/-- The first name of a list that also stands earlier in it. -/
def firstRepeated? (earlier : List String) : List String → Option String
  | [] => none
  | name :: rest => if name ∈ earlier then some name else firstRepeated? (name :: earlier) rest

def insertByName (task : Task) : List Task → List Task
  | [] => [task]
  | current :: rest =>
    if current.name < task.name then current :: insertByName task rest else task :: current :: rest

def sortByName (tasks : List Task) : List Task := tasks.foldr insertByName []

/-- What is wrong with one dependency of a task, if anything is. -/
def dependencyProblem? (names : List String) (task dependency : String) : Option Error :=
  if dependency = task then some (.selfDependency task)
  else if dependency ∈ names then none
  else some (.unknownDependency task dependency)

/-- The first dependency with a problem, tasks and their dependencies in order. -/
def firstDependencyProblem? (tasks : List Task) : Option Error :=
  let names := tasks.map Task.name
  tasks.findSome? fun task =>
    task.dependsOn.findSome? fun dependency => dependencyProblem? names task.name dependency

/-- The graph of a list of tasks, or the first thing that is wrong with it. -/
def ofTasks (tasks : List Task) : Except Error Graph :=
  match firstRepeated? [] (tasks.map Task.name) with
  | some name => .error (.duplicateTask name)
  | none =>
    let sorted := sortByName tasks
    match firstDependencyProblem? sorted with
    | some problem => .error problem
    | none =>
      match cycleMember? (sorted.map Task.name) (successors sorted) (predecessors sorted) with
      | some name => .error (.cycle name)
      | none => .ok ⟨sorted⟩

def names (graph : Graph) : List String := graph.tasks.map Task.name

def find? (graph : Graph) (name : String) : Option Task := findTask? graph.tasks name

def contains (graph : Graph) (name : String) : Bool := (graph.find? name).isSome

/-- The dependencies of a task as it lists them; none for an unknown name. -/
def dependenciesOf (graph : Graph) (name : String) : List String :=
  ((graph.find? name).map Task.dependsOn).getD []

/-- The tasks that list a name as a dependency, by name, once for each time they list it. -/
def dependentsOf (graph : Graph) (name : String) : List String := dependentsIn graph.tasks name

end Graph

end JobGraph
