import JobGraph.Json.Value

/-!
# The shared store

Tasks of a run share a store of values.  An attempt hands in a list of writes, which are carried out
in their order.
-/

namespace JobGraph

/-- The values that the tasks of a run share. -/
abbrev Store := KeyMap Json.Value

/-- One write to the shared store. -/
inductive StoreWrite where
  | set (key : String) (value : Json.Value)
  | remove (key : String)
  deriving DecidableEq, Repr

namespace StoreWrite

def key : StoreWrite → String
  | .set key _ => key
  | .remove key => key

def apply (store : Store) : StoreWrite → Store
  | .set key value => store.insert key value
  | .remove key => store.erase key

end StoreWrite

def Store.merge (store : Store) (writes : List StoreWrite) : Store :=
  writes.foldl StoreWrite.apply store

end JobGraph
