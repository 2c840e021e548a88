/-!
# The concurrency gate

A gate hands out permits, at most as many as its limit; a limit of zero means that there is no
limit.  Who asks while no permit is free waits, and permits that are given back go to the waiters
in the order in which they came.  Names tell holders and waiters apart; a holder to whom a second
permit is handed gives the first one back.

The permits are those of a fair semaphore, which the program takes from elsewhere.  Two facts about
it are assumed here: permits are granted first come, first served, so that nobody who asks gets
ahead of a waiter (`Gate.grant`), and a permit that is granted to a waiter who gives up is not lost
but passed on to the next one (`Gate.cancel`, `Gate.release`).
-/

namespace JobGraph

/-- A gate: its limit, who holds a permit, and who waits for one, the first to be served first. -/
structure Gate where
  limit : Nat
  held : List String
  waiting : List String
  deriving DecidableEq, Repr

namespace Gate

/-- The greatest limit that a gate supports. -/
def maximumLimit : Nat := 2305843009213693951

/-- A gate of which no permit is in use. -/
def ofLimit (limit : Nat) : Gate := ⟨limit, [], []⟩

/-- The permits that are free, or none if there is no limit. -/
def available? (gate : Gate) : Option Nat :=
  if gate.limit = 0 then none else some (gate.limit - gate.held.length)

def hasRoom (gate : Gate) : Bool := gate.limit = 0 || gate.held.length < gate.limit

/-- Hands free permits to the waiters, first come first served. -/
def grantFrom (gate : Gate) : List String → Gate
  | [] => { gate with waiting := [] }
  | id :: rest =>
    if gate.hasRoom then
      grantFrom (if id ∈ gate.held then gate else { gate with held := gate.held ++ [id] }) rest
    else { gate with waiting := id :: rest }

def grant (gate : Gate) : Gate := gate.grantFrom gate.waiting

/-- Starts to wait for a permit. -/
def acquire (gate : Gate) (id : String) : Gate :=
  { gate with waiting := gate.waiting ++ [id] }.grant

/-- Gives back one permit of a holder; nothing changes if it holds none. -/
def release (gate : Gate) (id : String) : Gate :=
  { gate with held := gate.held.erase id }.grant

/-- Gives up waiting.  A permit that was granted before is still held, and is passed on once it is
given back. -/
def cancel (gate : Gate) (id : String) : Gate :=
  { gate with waiting := gate.waiting.filter (· ≠ id) }.grant

def holds (gate : Gate) (id : String) : Bool := gate.held.contains id

def awaits (gate : Gate) (id : String) : Bool := gate.waiting.contains id

end Gate

end JobGraph
