import JobGraph.NameSet
import JobGraph.Task.State

/-!
# State maps

A state map keeps the set of names in each state.  A map made here has a set for every state; one
read from outside may lack sets or hold a name in several of them, and every query gives an answer
for such a map too.  `insert` takes a name out of all other sets; `apply` trusts a transition and
takes it out of the set it comes from.
-/

namespace JobGraph

/-- One change of a task's state. -/
structure Transition where
  task : String
  source : TaskState
  target : TaskState
  deriving DecidableEq, Repr

/-- The names in each state; a state may have no set at all. -/
structure StateMap where
  init : Option NameSet
  pending : Option NameSet
  running : Option NameSet
  completed : Option NameSet
  failed : Option NameSet
  defaulted : Option NameSet
  aborted : Option NameSet
  skip : Option NameSet
  deriving DecidableEq, Repr

namespace StateMap

/-- The map without any set. -/
def bare : StateMap := ⟨none, none, none, none, none, none, none, none⟩

/-- The map with an empty set for every state. -/
def empty : StateMap :=
  let nobody := some NameSet.empty
  ⟨nobody, nobody, nobody, nobody, nobody, nobody, nobody, nobody⟩

instance : Inhabited StateMap := ⟨empty⟩

/-- The set of a state, if the map has one. -/
def get? (map : StateMap) : TaskState → Option NameSet
  | .init => map.init
  | .pending => map.pending
  | .running => map.running
  | .completed => map.completed
  | .failed => map.failed
  | .defaulted => map.defaulted
  | .aborted => map.aborted
  | .skip => map.skip

def set (map : StateMap) (state : TaskState) (names : NameSet) : StateMap :=
  match state with
  | .init => { map with init := some names }
  | .pending => { map with pending := some names }
  | .running => { map with running := some names }
  | .completed => { map with completed := some names }
  | .failed => { map with failed := some names }
  | .defaulted => { map with defaulted := some names }
  | .aborted => { map with aborted := some names }
  | .skip => { map with skip := some names }

def names (map : StateMap) (state : TaskState) : NameSet := (map.get? state).getD .empty

@[simp]
theorem get?_set (map : StateMap) (state other : TaskState) (names : NameSet) :
    (map.set state names).get? other = if other = state then some names else map.get? other := by
  cases state <;> cases other <;> rfl

/-- Takes a name out of the set of a state. -/
def remove (map : StateMap) (state : TaskState) (name : String) : StateMap :=
  match map.get? state with
  | some names => map.set state (names.erase name)
  | none => map

/-- Puts a name into the set of a state. -/
def add (map : StateMap) (state : TaskState) (name : String) : StateMap :=
  map.set state ((map.names state).insert name)

/-- Moves a name into a state, out of every other. -/
def insert (map : StateMap) (name : String) (state : TaskState) : StateMap :=
  (TaskState.all.foldl (fun map other => map.remove other name) map).add state name

/-- Carries out a transition: the name leaves the state it comes from and no other. -/
def apply (map : StateMap) (transition : Transition) : StateMap :=
  (map.remove transition.source transition.task).add transition.target transition.task

/-- The map of names that are all in one state. -/
def allIn (names : List String) (state : TaskState) : StateMap :=
  names.foldl (fun map name => map.insert name state) empty

/-- The state of a name, the first one in the order of states if it is in several. -/
def stateOf? (map : StateMap) (name : String) : Option TaskState :=
  TaskState.all.find? fun state => decide (name ∈ map.names state)

def namesIn (map : StateMap) (states : List TaskState) : NameSet :=
  states.foldl (fun found state => found.union (map.names state)) .empty

/-- The sizes of the sets of the states, added up. -/
def countIn (map : StateMap) (states : List TaskState) : Nat :=
  states.foldl (fun count state => count + (map.names state).size) 0

def total (map : StateMap) : Nat := map.countIn TaskState.all

def allNames (map : StateMap) : NameSet := map.namesIn TaskState.all

def isSettled (map : StateMap) : Bool := map.countIn TaskState.active == 0

/-- Whether some task failed, was defaulted or was aborted. -/
def hasFailures (map : StateMap) : Bool := 0 < map.countIn [.failed, .defaulted, .aborted]

/-- The code and size of each set that is not empty. -/
def summary (map : StateMap) : String :=
  let shown := TaskState.all.filterMap fun state =>
    let size := (map.names state).size
    if size = 0 then none else some (String.singleton state.code ++ ":" ++ toString size)
  String.intercalate " " shown

end StateMap

end JobGraph
