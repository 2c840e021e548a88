import JobGraph.Rehearsal.Basic

/-!
# What a rehearsal shows

The notices of the aggregator and the launches of a rehearsal, each with its moment.
-/

namespace JobGraph

namespace Rehearsal

def notices (rehearsal : Rehearsal) : List (Nat × Notice) :=
  rehearsal.noticeTimes.zip rehearsal.run.aggregator.notices

def transitions (rehearsal : Rehearsal) : List (Nat × Transition) :=
  rehearsal.notices.filterMap fun (moment, notice) =>
    match notice with
    | .moved transition _ => some (moment, transition)
    | _ => none

def lines (rehearsal : Rehearsal) : List (Nat × LogLine) :=
  rehearsal.notices.filterMap fun (moment, notice) =>
    match notice with
    | .logged line => some (moment, line)
    | _ => none

/-- The news that the run is complete, with whether it failed and the states. -/
def completions (rehearsal : Rehearsal) : List (Nat × Bool × StateMap) :=
  rehearsal.notices.filterMap fun (moment, notice) =>
    match notice with
    | .complete failed states => some (moment, failed, states)
    | _ => none

def launches (rehearsal : Rehearsal) : List (Nat × Request) :=
  rehearsal.launchTimes.zip rehearsal.run.scene.launches

/-- Sorts by the moment, and at one moment by a name; equals keep their order. -/
def byMoment {α : Type} (name : α → String) (happened : List (Nat × α)) : List (Nat × α) :=
  happened.mergeSort fun first second =>
    first.1 < second.1 || (first.1 = second.1 && !(name second.2 < name first.2))

/-- The attempts that ended because they were told to stop. -/
def abortedAttempts (rehearsal : Rehearsal) : List (String × AttemptResult) :=
  rehearsal.ended.filter fun (_, result) =>
    match result with
    | .report report => report.aborted
    | .error _ => false

end Rehearsal

end JobGraph
