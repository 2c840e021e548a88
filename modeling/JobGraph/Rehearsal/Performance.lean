import JobGraph.Task.Severity
import JobGraph.Worker.Frame
import JobGraph.Worker.Report

/-!
# Attempts on a clock

A performance says what an attempt does and when, in nanoseconds from its start.  A launcher gives
the performance for a request, for the files that are there at its start and for the moment at which
the attempt is told to stop, if it is.  Up to that moment it does not depend on it.
-/

namespace JobGraph

/-- What an attempt shows to others while it runs. -/
inductive Happening where
  | line (severity : Severity) (message : String)
  | file (name : String)
  deriving DecidableEq, Repr

/-- What an attempt does and when. -/
structure Performance where
  /-- What happens, in order of time. -/
  happenings : List (Nat × Happening)
  length : Nat
  result : AttemptResult
  deriving DecidableEq, Repr

/-- A way to make attempts: the files at the start, the request, and when it is told to stop. -/
abbrev Launcher := List String → Request → Option Nat → Performance

/-- An attempt under way. -/
structure Attempt where
  request : Request
  started : Nat
  present : List String
  /-- When it was told to stop, from its start. -/
  stopped : Option Nat
  plan : Performance
  /-- How many of the happenings of its plan are over. -/
  shown : Nat
  deriving DecidableEq, Repr

namespace Attempt

def start (launcher : Launcher) (present : List String) (now : Nat) (request : Request) : Attempt :=
  ⟨request, now, present, none, launcher present request none, 0⟩

def name (attempt : Attempt) : String := attempt.request.name

/-- Tells an attempt to stop; only the first call counts. -/
def stop (launcher : Launcher) (now : Nat) (attempt : Attempt) : Attempt :=
  match attempt.stopped with
  | some _ => attempt
  | none =>
    let moment := now - attempt.started
    { attempt with
      stopped := some moment
      plan := launcher attempt.present attempt.request (some moment) }

/-- What happens next, if anything is left before the end. -/
def next? (attempt : Attempt) : Option (Nat × Happening) := attempt.plan.happenings[attempt.shown]?

def due (attempt : Attempt) : Nat :=
  attempt.started
    + match attempt.next? with
      | some (moment, _) => moment
      | none => attempt.plan.length

end Attempt

/-- The end of the millisecond that a moment lies in; pauses end on whole milliseconds. -/
def wholeMillisecond (moment : Nat) : Nat := (moment + 999999) / 1000000 * 1000000

/-- The least of two moments of which either may be missing. -/
def earlier? : Option Nat → Option Nat → Option Nat
  | some first, some second => some (min first second)
  | some first, none => some first
  | none, second => second

def earliest? (moments : List Nat) : Option Nat :=
  moments.foldl (fun least moment => earlier? least (some moment)) none

end JobGraph
