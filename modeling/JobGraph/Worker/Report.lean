import JobGraph.Error
import JobGraph.Run.Store

/-!
# Reports on attempts

What comes back from an attempt: whether it failed, whether it stopped because it was told to, and
what it wrote to the shared store.  An attempt that could not be made gives an error instead.
-/

namespace JobGraph

/-- What came back from an attempt. -/
structure Report where
  failed : Bool
  aborted : Bool
  writes : List StoreWrite
  deriving DecidableEq, Repr

/-- What an attempt ends with. -/
inductive AttemptResult where
  | report (report : Report)
  | error (error : Error)
  deriving DecidableEq, Repr

end JobGraph
