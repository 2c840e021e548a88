import JobGraph.Rehearsal.Performance
import JobGraph.Run.Runner

/-!
# One runner on a clock

A runner is driven alone while others, of which only their handles are known, change at given
moments, a permit of the gate comes free, or the runner is told to stop.
-/

namespace JobGraph

/-- A change around a runner that is driven alone. -/
inductive Change where
  | handle (name : String) (handle : Handle)
  | freed (holder : String)
  | cancel
  deriving DecidableEq, Repr

/-- A runner driven alone. -/
structure Solo where
  runner : Runner
  scene : Scene
  handles : List (String × Handle)
  now : Nat
  attempt : Option Attempt
  rest : Option Nat
  /-- The moments of the launches, in their order. -/
  launchTimes : List Nat
  deriving Repr

namespace Solo

/-- The most steps that are taken in a row. -/
def stepBound : Nat := 100000000

def start (runner : Runner) (scene : Scene) (handles : List (String × Handle)) : Solo :=
  ⟨runner, scene, handles, 0, none, none, []⟩

/-- What is known of a runner with a name. -/
def handle? (solo : Solo) (name : String) : Option Handle :=
  (solo.handles.find? fun entry => entry.1 = name).map Prod.snd

def change (launcher : Launcher) (solo : Solo) : Change → Solo
  | .handle name handle =>
    { solo with
      handles := solo.handles.map fun entry =>
        if entry.1 = name then (name, handle) else entry }
  | .freed holder =>
    { solo with scene := { solo.scene with gate := solo.scene.gate.release holder } }
  | .cancel =>
    { solo with
      scene := { solo.scene with cancelled := true }
      attempt := solo.attempt.map (Attempt.stop launcher solo.now) }

/-- Lets the attempt show one thing or end, if that is due. -/
def perform? (solo : Solo) : Option Solo :=
  match solo.attempt with
  | none => none
  | some attempt =>
    if solo.now < attempt.due then none
    else
      match attempt.next? with
      | some (_, .line severity message) =>
        some { solo with
          scene := solo.scene.send (.logged ⟨attempt.name, severity, message⟩)
          attempt := some { attempt with shown := attempt.shown + 1 } }
      | some (_, .file _) =>
        some { solo with attempt := some { attempt with shown := attempt.shown + 1 } }
      | none =>
        (solo.runner.ended? attempt.plan.result).map fun runner =>
          { solo with runner, attempt := none }

def rest? (solo : Solo) : Option Solo :=
  if solo.rest.any (· ≤ solo.now) then
    (solo.runner.rested? solo.scene).map fun runner => { solo with runner, rest := none }
  else none

def begin? (launcher : Launcher) (solo : Solo) : Option Solo :=
  match solo.runner.phase, solo.attempt, solo.rest with
  | .attempting, none, _ =>
    solo.scene.launches.getLast?.map fun request =>
      { solo with
        attempt := some (Attempt.start launcher [] solo.now request)
        launchTimes := solo.launchTimes ++ [solo.now] }
  | .resting pause, _, none =>
    some { solo with rest := some (wholeMillisecond (solo.now + pause.nanoseconds)) }
  | _, _, _ => none

/-- The next thing that can happen at this moment. -/
def step? (launcher : Launcher) (solo : Solo) : Option Solo :=
  match solo.runner.step? solo.handle? solo.scene with
  | some (runner, scene) => some { solo with runner, scene }
  | none => solo.perform? <|> solo.rest? <|> solo.begin? launcher

/-- Goes on until nothing can happen at this moment; the first argument bounds the steps. -/
def settle (launcher : Launcher) : Nat → Solo → Solo
  | 0, solo => solo
  | fuel + 1, solo =>
    match solo.step? launcher with
    | some next => settle launcher fuel next
    | none => solo

def nextMoment? (solo : Solo) (changes : List (Nat × Change)) : Option Nat :=
  earliest? (solo.attempt.toList.map Attempt.due ++ solo.rest.toList ++ changes.map Prod.fst)

/-- Goes on until the runner is gone or nothing is due any more; the first argument bounds the
moments. -/
def playOn (launcher : Launcher) : Nat → List (Nat × Change) → Solo → Solo
  | 0, _, solo => solo
  | fuel + 1, changes, solo =>
    let due := changes.filter fun entry => entry.1 ≤ solo.now
    let later := changes.filter fun entry => !(entry.1 ≤ solo.now)
    let solo := due.foldl (fun solo entry => solo.change launcher entry.2) solo
    let solo := settle launcher stepBound solo
    if solo.runner.isGone then solo
    else
      match solo.nextMoment? later with
      | none => solo
      | some moment => playOn launcher fuel later { solo with now := moment }

/-- Drives a runner from its first step to its last. -/
def play (launcher : Launcher) (changes : List (Nat × Change)) (solo : Solo) : Solo :=
  playOn launcher stepBound changes solo

end Solo

end JobGraph
