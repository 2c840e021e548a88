import JobGraph.Json.Value
import JobGraph.Number.Duration

/-!
# Tasks

A task of a job: what kind of work it is, with which parameters, after which other tasks, and how
often it is tried.
-/

namespace JobGraph

/-- A task of a job. -/
structure Task where
  name : String
  variant : String
  dependsOn : List String
  maxAttempts : Nat
  backoff : Duration
  parameters : Json.Value
  deriving Repr, DecidableEq

end JobGraph
