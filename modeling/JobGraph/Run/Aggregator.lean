import JobGraph.Run.Event

/-!
# The aggregator

The aggregator is the only one to take events from the queue.  It keeps the map of states up to
date, publishes it after each change, and tells of each event: it calls the observers one after the
other.  When the run is declared complete, or nobody is left to send events, it takes the events
that are still there and then tells that the run is over.
-/

namespace JobGraph

/-- What observers are told, with the map of states at that time. -/
inductive Notice where
  | moved (transition : Transition) (states : StateMap)
  | logged (line : LogLine)
  | complete (failed : Bool) (states : StateMap)
  deriving DecidableEq, Repr

/-- How far the aggregator has come. -/
inductive AggregatorPhase where
  | serving
  | draining
  | ended
  deriving DecidableEq, Repr

/-- The aggregator: the published map, how many events it has taken, and what it told. -/
structure Aggregator where
  states : StateMap
  taken : Nat
  phase : AggregatorPhase
  notices : List Notice
  /-- How many observers there are. -/
  observers : Nat
  /-- The calls of observers so far, each with the number of the observer. -/
  calls : List (Nat × Notice)
  deriving DecidableEq, Repr

namespace Aggregator

def ofStates (states : StateMap) : Aggregator := ⟨states, 0, .serving, [], 0, []⟩

/-- Registers observers. -/
def attend (aggregator : Aggregator) (observers : Nat) : Aggregator := { aggregator with observers }

/-- Calls one observer after the other. -/
def tell (aggregator : Aggregator) (notice : Notice) : Aggregator :=
  { aggregator with
    notices := aggregator.notices ++ [notice]
    calls := aggregator.calls ++
      (List.range aggregator.observers).map fun observer => (observer, notice) }

def take (aggregator : Aggregator) (event : Event) : Aggregator :=
  let aggregator := { aggregator with taken := aggregator.taken + 1 }
  match event with
  | .moved transition =>
    let states := aggregator.states.apply transition
    { aggregator with states }.tell (.moved transition states)
  | .logged line => aggregator.tell (.logged line)

def conclude (aggregator : Aggregator) : Aggregator :=
  { aggregator with phase := .ended }.tell
    (.complete aggregator.states.hasFailures aggregator.states)

/-- The next step of the aggregator, if it has one: `events` are all events sent so far, `closed`
tells that nobody is left to send more, `complete` that the run is declared complete. -/
def step? (events : List Event) (closed complete : Bool) (aggregator : Aggregator) :
    Option Aggregator :=
  match aggregator.phase, events[aggregator.taken]? with
  | .ended, _ => none
  | _, some event => some (aggregator.take event)
  | .draining, none => some aggregator.conclude
  | .serving, none =>
    if closed || complete then some { aggregator with phase := .draining } else none

/-- The steps that the aggregator has left at most while no event is sent. -/
def stepsLeft (events : List Event) (aggregator : Aggregator) : Nat :=
  events.length - aggregator.taken + 3

/-- Goes on until there is nothing left to do; the first argument bounds the steps. -/
def settleWithin (events : List Event) (closed complete : Bool) : Nat → Aggregator → Aggregator
  | 0, aggregator => aggregator
  | fuel + 1, aggregator =>
    match aggregator.step? events closed complete with
    | some aggregator => settleWithin events closed complete fuel aggregator
    | none => aggregator

/-- Goes on until there is nothing left to do. -/
def settle (events : List Event) (closed complete : Bool) (aggregator : Aggregator) : Aggregator :=
  settleWithin events closed complete (aggregator.stepsLeft events) aggregator

end Aggregator

/-- An aggregator with the events that were sent to it. -/
structure Feed where
  aggregator : Aggregator
  events : List Event
  /-- Whether nobody can send events any more. -/
  closed : Bool
  /-- Whether the run is declared complete. -/
  complete : Bool
  deriving DecidableEq, Repr

namespace Feed

/-- Sends an event, which is lost when nobody can send events any more. -/
def send (feed : Feed) (event : Event) : Feed :=
  if feed.closed then feed else { feed with events := feed.events ++ [event] }

def settle (feed : Feed) : Feed :=
  { feed with aggregator := feed.aggregator.settle feed.events feed.closed feed.complete }

end Feed

end JobGraph
