import JobGraph.Rehearsal.Performance
import JobGraph.Run.Basic

/-!
# Rehearsals

A rehearsal takes the steps of a run on a clock.  The clock stands still while any step can be
taken, and then goes on to the next moment at which something is due: an attempt shows something or
ends, a pause ends, the run is told to stop, or the time of a checkpoint has come.  Runners act one
after the other, each until it has to wait, in the order in which they came to be able to act.
-/

namespace JobGraph

/-- What a rehearsal takes place in. -/
structure Setting where
  launcher : Launcher
  /-- The time between two checkpoints, in nanoseconds. -/
  interval : Nat
  /-- Whether the write of a checkpoint succeeds, by how many were made before. -/
  accepts : Nat → Bool
  acceptsClear : Bool

/-- The state of a rehearsal. -/
structure Rehearsal where
  run : Run
  now : Nat
  /-- The runners that can act, in order. -/
  ready : List String
  attempts : List Attempt
  /-- The runners that pause, each with the moment at which its pause ends. -/
  rests : List (String × Nat)
  tick : Option Nat
  cancel : Option Nat
  /-- The files that are there, each with the moment since which it is. -/
  files : List (String × Nat)
  /-- The moments of the notices of the aggregator, in their order. -/
  noticeTimes : List Nat
  /-- The moments of the launches, in their order. -/
  launchTimes : List Nat
  /-- The moments of the writes of checkpoints, in their order. -/
  writeTimes : List Nat
  /-- The attempts that have ended, in that order. -/
  ended : List (String × AttemptResult)
  /-- The most attempts that were under way at once. -/
  peak : Nat
  deriving Repr

namespace Rehearsal

/-- The most steps that are taken in a row. -/
def stepBound : Nat := 100000000

def start (setting : Setting) (run : Run) (cancel : Option Nat) (files : List String) :
    Rehearsal where
  run := run
  now := 0
  ready := run.runners.map Runner.name
  attempts := []
  rests := []
  tick := if run.saver = .waiting then some setting.interval else none
  cancel := cancel
  files := files.map fun file => (file, 0)
  noticeTimes := []
  launchTimes := []
  writeTimes := []
  ended := []
  peak := 0

/-- Takes a step of the run if it can be taken. -/
def take? (rehearsal : Rehearsal) (step : Step) : Option Rehearsal :=
  (rehearsal.run.step? step).map fun run => { rehearsal with run }

/-- Takes a step of the run, or leaves it out if it cannot be taken. -/
def take (rehearsal : Rehearsal) (step : Step) : Rehearsal :=
  (rehearsal.take? step).getD rehearsal

/-- The moment since which a file is there. -/
def since? (rehearsal : Rehearsal) (file : String) : Option Nat :=
  (rehearsal.files.find? fun known => known.1 = file).map Prod.snd

def present (rehearsal : Rehearsal) (name : String) : Happening → Rehearsal
  | .line severity message => rehearsal.take (.line name severity message)
  | .file file =>
    if (rehearsal.since? file).isSome then rehearsal
    else { rehearsal with files := rehearsal.files ++ [(file, rehearsal.now)] }

/-- Lets an attempt go on until something of it is due later; it is gone from the list when it ends.
The first argument bounds what happens. -/
def perform : Nat → Attempt → Rehearsal → Rehearsal × Option Attempt
  | 0, attempt, rehearsal => (rehearsal, some attempt)
  | fuel + 1, attempt, rehearsal =>
    if rehearsal.now < attempt.due then (rehearsal, some attempt)
    else
      match attempt.next? with
      | some (_, happening) =>
        perform fuel { attempt with shown := attempt.shown + 1 }
          (rehearsal.present attempt.name happening)
      | none =>
        let result := attempt.plan.result
        let rehearsal := rehearsal.take (.ended attempt.name result)
        ({ rehearsal with ended := rehearsal.ended ++ [(attempt.name, result)] }, none)

/-- Lets an attempt go on as far as the clock allows. -/
def carryOn (attempt : Attempt) (rehearsal : Rehearsal) : Rehearsal × Option Attempt :=
  perform (attempt.plan.happenings.length + 1) attempt rehearsal

/-- Counts an attempt that begins, unless it could not be started. -/
def count (rehearsal : Rehearsal) (attempt : Attempt) : Rehearsal :=
  match attempt.plan.result with
  | .report _ => { rehearsal with peak := max rehearsal.peak (rehearsal.attempts.length + 1) }
  | .error _ => rehearsal

/-- The step that a runner takes without waiting although it comes from outside: an attempt begins,
and goes on if it takes no time; a pause begins, and ends if it takes no time. -/
def begin? (setting : Setting) (rehearsal : Rehearsal) (runner : Runner) : Option Rehearsal :=
  match runner.phase with
  | .attempting =>
    if rehearsal.attempts.any fun attempt => attempt.name = runner.name then none
    else
      match rehearsal.run.scene.launches.getLast? with
      | none => none
      | some request =>
        let files := rehearsal.files.map Prod.fst
        let attempt := Attempt.start setting.launcher files rehearsal.now request
        let rehearsal :=
          { rehearsal with launchTimes := rehearsal.launchTimes ++ [rehearsal.now] }
        match carryOn attempt (rehearsal.count attempt) with
        | (rehearsal, none) => some rehearsal
        | (rehearsal, some attempt) =>
          some { rehearsal with attempts := rehearsal.attempts ++ [attempt] }
  | .resting pause =>
    if rehearsal.rests.any fun rest => rest.1 = runner.name then none
    else
      let moment := wholeMillisecond (rehearsal.now + pause.nanoseconds)
      if moment ≤ rehearsal.now then some (rehearsal.take (.rested runner.name))
      else some { rehearsal with rests := rehearsal.rests ++ [(runner.name, moment)] }
  | _ => none

/-- Lets a runner act until it has to wait; the first argument bounds its steps. -/
def act (setting : Setting) (name : String) : Nat → Rehearsal → Rehearsal
  | 0, rehearsal => rehearsal
  | fuel + 1, rehearsal =>
    match rehearsal.take? (.runner name) with
    | some rehearsal => act setting name fuel rehearsal
    | none =>
      match (rehearsal.run.find? name).bind (rehearsal.begin? setting) with
      | some rehearsal => act setting name fuel rehearsal
      | none => rehearsal

/-- Whether a runner can take a step by itself. -/
def canAct (run : Run) (runner : Runner) : Bool :=
  (runner.step? run.handle? run.scene).isSome

/-- Notes which runners have come to be able to act. -/
def wake (rehearsal : Rehearsal) : Rehearsal :=
  let woken := rehearsal.run.runners.filter fun runner =>
    canAct rehearsal.run runner && !rehearsal.ready.contains runner.name
  { rehearsal with ready := rehearsal.ready ++ woken.map Runner.name }

/-- Forgets the pause of a runner that does not pause any more. -/
def dropRests (rehearsal : Rehearsal) : Rehearsal :=
  { rehearsal with
    rests := rehearsal.rests.filter fun rest =>
      (rehearsal.run.find? rest.1).any fun runner => runner.phase.pause?.isSome }

/-- Lets the runners act until all of them have to wait; the first argument bounds their turns. -/
def drain (setting : Setting) : Nat → Rehearsal → Rehearsal
  | 0, rehearsal => rehearsal
  | fuel + 1, rehearsal =>
    match rehearsal.ready with
    | [] => rehearsal
    | name :: ready =>
      drain setting fuel (wake (dropRests (act setting name stepBound { rehearsal with ready })))

def catchUp (rehearsal : Rehearsal) : Rehearsal :=
  let run := rehearsal.run
  let aggregator := run.aggregator.settle run.scene.events run.isQuiet run.complete
  let count := aggregator.notices.length - run.aggregator.notices.length
  { rehearsal with
    run := { run with aggregator }
    noticeTimes := rehearsal.noticeTimes ++ List.replicate count rehearsal.now }

/-- Takes a step of the saver, if it has one. -/
def save? (setting : Setting) (rehearsal : Rehearsal) : Option Rehearsal :=
  let made := rehearsal.run.writes.length
  (rehearsal.take? (.saver (setting.accepts made))).map fun next =>
    if next.run.writes.length = made then next
    else { next with writeTimes := next.writeTimes ++ [next.now] }

/-- Takes a step of the conductor, if it has one. -/
def conduct? (setting : Setting) (rehearsal : Rehearsal) : Option Rehearsal :=
  let made := rehearsal.run.writes.length
  let accepted :=
    match FinalCheckpoint.ofStates rehearsal.run.aggregator.states with
    | .written => setting.accepts made
    | .cleared => setting.acceptsClear
  (rehearsal.take? (.conductor accepted)).map fun next =>
    if next.run.writes.length = made then next
    else { next with writeTimes := next.writeTimes ++ [next.now] }

/-- Takes all steps that can be taken now; the first argument bounds them. -/
def settle (setting : Setting) : Nat → Rehearsal → Rehearsal
  | 0, rehearsal => rehearsal
  | fuel + 1, rehearsal =>
    let rehearsal := catchUp (drain setting stepBound rehearsal)
    match save? setting rehearsal with
    | some rehearsal => settle setting fuel rehearsal
    | none =>
      match conduct? setting rehearsal with
      | some rehearsal => settle setting fuel rehearsal
      | none => rehearsal

/-- The next moment at which something is due. -/
def nextMoment? (rehearsal : Rehearsal) : Option Nat :=
  let inner :=
    earliest? (rehearsal.attempts.map Attempt.due ++ rehearsal.rests.map Prod.snd)
  earlier? inner
    (earlier? rehearsal.cancel (if rehearsal.run.saver = .waiting then rehearsal.tick else none))

/-- Tells the run to stop if it is time. -/
def cancelDue (setting : Setting) (rehearsal : Rehearsal) : Rehearsal :=
  if rehearsal.cancel.any (· ≤ rehearsal.now) then
    let rehearsal := rehearsal.take .cancel
    { rehearsal with
      cancel := none
      attempts := rehearsal.attempts.map (Attempt.stop setting.launcher rehearsal.now) }
  else rehearsal

/-- Lets every attempt go on as far as the clock allows. -/
def performDue : List Attempt → Rehearsal → Rehearsal
  | [], rehearsal => rehearsal
  | attempt :: rest, rehearsal =>
    match carryOn attempt rehearsal with
    | (rehearsal, none) =>
      performDue rest { rehearsal with ready := rehearsal.ready ++ [attempt.name] }
    | (rehearsal, some attempt) =>
      performDue rest { rehearsal with attempts := rehearsal.attempts ++ [attempt] }

/-- Ends the pauses that are over. -/
def restDue : List (String × Nat) → Rehearsal → Rehearsal
  | [], rehearsal => rehearsal
  | (name, moment) :: rest, rehearsal =>
    if moment ≤ rehearsal.now then
      let rehearsal := rehearsal.take (.rested name)
      restDue rest { rehearsal with ready := rehearsal.ready ++ [name] }
    else restDue rest { rehearsal with rests := rehearsal.rests ++ [(name, moment)] }

/-- Tells the saver that the time of its next checkpoint has come, if it has. -/
def tickDue (setting : Setting) (rehearsal : Rehearsal) : Rehearsal :=
  match rehearsal.tick with
  | some moment =>
    if moment ≤ rehearsal.now && rehearsal.run.saver = .waiting then
      let next := max (moment + setting.interval) (rehearsal.now + 1000000)
      { rehearsal.take .tick with tick := some next }
    else rehearsal
  | none => rehearsal

/-- Does what is due at the moment of the clock. -/
def doDue (setting : Setting) (rehearsal : Rehearsal) : Rehearsal :=
  let rehearsal := cancelDue setting rehearsal
  let attempts := rehearsal.attempts
  let rehearsal := performDue attempts { rehearsal with attempts := [] }
  let rests := rehearsal.rests
  let rehearsal := restDue rests { rehearsal with rests := [] }
  wake (tickDue setting rehearsal)

def isOver (rehearsal : Rehearsal) : Bool := rehearsal.run.final?.isSome

/-- Goes on until nothing is due any more; the first argument bounds the moments. -/
def playOn (setting : Setting) : Nat → Rehearsal → Rehearsal
  | 0, rehearsal => rehearsal
  | fuel + 1, rehearsal =>
    let rehearsal := settle setting stepBound rehearsal
    if rehearsal.isOver then rehearsal
    else
      match rehearsal.nextMoment? with
      | none => rehearsal
      | some moment => playOn setting fuel (doDue setting { rehearsal with now := moment })

/-- Plays a run from its first step to its last. -/
def play (setting : Setting) (run : Run) (cancel : Option Nat) (files : List String) : Rehearsal :=
  playOn setting stepBound (start setting run cancel files)

end Rehearsal

end JobGraph
