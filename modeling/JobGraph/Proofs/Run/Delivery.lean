import JobGraph.Proofs.Run.Moves
import JobGraph.Proofs.Run.Observers
import JobGraph.Proofs.Run.Progress
import Mathlib.Logic.Relation

/-!
# Nothing that is sent is lost

`History.narrate` is what observers have to be told of some events: each event once, in its place,
and with each move the map that it leads to.  Whoever sends, and whenever the run is declared
complete, the aggregator tells exactly this of the events that it has taken (`Aggregator.Faithful`),
each of its observers hears all of it, and it ends only when it finds the queue empty.

In a run nothing is sent after that.  The run is declared complete when the published map says that
all tasks have ended; a runner whose task has ended has nothing more to tell, and its attempts are
over.
-/

namespace JobGraph

/-! ## What has to be told -/

/-- What observers are told of an event, with the map that it leads to. -/
def Notice.ofEvent (states : StateMap) : Event → Notice
  | .moved transition => .moved transition states
  | .logged line => .logged line

/-- The event that a notice tells of. -/
def Notice.event? : Notice → Option Event
  | .moved transition _ => some (.moved transition)
  | .logged line => some (.logged line)
  | .complete _ _ => none

/-- The move that a notice tells of, with the map that came with it. -/
def Notice.move? : Notice → Option (Transition × StateMap)
  | .moved transition states => some (transition, states)
  | .logged _ | .complete _ _ => none

namespace History

/-- What observers have to be told of some events. -/
def narrate : StateMap → List Event → List Notice
  | _, [] => []
  | map, event :: rest => Notice.ofEvent (follow map event) event :: narrate (follow map event) rest

theorem narrate_concat (map : StateMap) (events : List Event) (event : Event) :
    narrate map (events ++ [event]) =
      narrate map events ++ [Notice.ofEvent (replay map (events ++ [event])) event] := by
  induction events generalizing map with
  | nil => rfl
  | cons first rest inductionHypothesis =>
      rw [List.cons_append, narrate, inductionHypothesis]
      rfl

@[simp]
theorem filterMap_event?_narrate (map : StateMap) (events : List Event) :
    (narrate map events).filterMap Notice.event? = events := by
  induction events generalizing map with
  | nil => rfl
  | cons event rest inductionHypothesis =>
      cases event with
      | moved first => exact congrArg (Event.moved first :: ·) (inductionHypothesis _)
      | logged line => exact congrArg (Event.logged line :: ·) (inductionHypothesis _)

theorem replay_eq_foldl (map : StateMap) (events : List Event) :
    replay map events = (moves events).foldl StateMap.apply map := by
  induction events generalizing map with
  | nil => rfl
  | cons event rest inductionHypothesis =>
      cases event with
      | moved | logged => exact inductionHypothesis _

/-- The moves are told in their order, each with the map that the moves up to it lead to. -/
theorem getElem?_moves_narrate {map : StateMap} {events : List Event} {index : Nat}
    {transition : Transition} {states : StateMap}
    (told : ((narrate map events).filterMap Notice.move?)[index]? = some (transition, states)) :
    (moves events)[index]? = some transition ∧
      states = ((moves events).take (index + 1)).foldl StateMap.apply map := by
  induction events generalizing map index with
  | nil => cases told
  | cons event rest inductionHypothesis =>
      cases event with
      | logged line => exact inductionHypothesis told
      | moved first =>
          cases index with
          | zero =>
              cases told
              exact ⟨rfl, rfl⟩
          | succ index => exact inductionHypothesis told

theorem length_moves_narrate (map : StateMap) (events : List Event) :
    ((narrate map events).filterMap Notice.move?).length = (moves events).length := by
  induction events generalizing map with
  | nil => rfl
  | cons event rest inductionHypothesis =>
      cases event with
      | logged line => exact inductionHypothesis _
      | moved first => exact congrArg Nat.succ (inductionHypothesis _)

theorem moves_take (events : List Event) (length : Nat) :
    moves (events.take length) = (moves events).take (moves (events.take length)).length :=
  List.prefix_iff_eq_take.1 ((List.take_prefix length events).filterMap Event.transition?)

end History

/-! ## The aggregator -/

namespace Aggregator

variable {initial : StateMap} {events more : List Event} {closed complete : Bool}
  {aggregator next : Aggregator}

/-- What the aggregator has told at its end besides the events. -/
def closing (aggregator : Aggregator) : List Notice :=
  if aggregator.phase = .ended then [.complete aggregator.states.hasFailures aggregator.states]
  else []

/-- The aggregator has told of the events that it took, and published the map that they lead to. -/
structure Faithful (initial : StateMap) (events : List Event) (aggregator : Aggregator) : Prop where
  within : aggregator.taken ≤ events.length
  published : aggregator.states = History.replay initial (events.take aggregator.taken)
  told : aggregator.notices =
    History.narrate initial (events.take aggregator.taken) ++ aggregator.closing

theorem take_notices (aggregator : Aggregator) (event : Event) :
    (aggregator.take event).notices = aggregator.notices ++
      [Notice.ofEvent (History.follow aggregator.states event) event] := by
  cases event <;> rfl

theorem closing_of_ne (going : aggregator.phase ≠ .ended) : aggregator.closing = [] := if_neg going

@[simp]
theorem filterMap_move?_closing (aggregator : Aggregator) :
    aggregator.closing.filterMap Notice.move? = [] := by
  unfold closing
  split <;> rfl

@[simp]
theorem filterMap_event?_closing (aggregator : Aggregator) :
    aggregator.closing.filterMap Notice.event? = [] := by
  unfold closing
  split <;> rfl

namespace Faithful

theorem ofStates : Faithful initial [] (ofStates initial) := ⟨Nat.le_refl 0, rfl, rfl⟩

/-- The aggregator is as faithful when nobody looks. -/
theorem of_unattended (faithful : Faithful initial events aggregator.unattended) :
    Faithful initial events aggregator :=
  ⟨faithful.within, faithful.published, faithful.told⟩

theorem grow (faithful : Faithful initial events aggregator) (grows : events <+: more) :
    Faithful initial more aggregator := by
  have same := History.take_of_isPrefix grows faithful.within
  exact ⟨Nat.le_trans faithful.within grows.length_le, same ▸ faithful.published,
    same ▸ faithful.told⟩

theorem step? (faithful : Faithful initial events aggregator)
    (taken : aggregator.step? events closed complete = some next) :
    Faithful initial events next := by
  rcases step?_cases taken with ⟨event, there, going, rfl⟩ | ⟨nothing, draining, rfl⟩ |
    ⟨nothing, serving, signalled, rfl⟩
  · have longer := History.take_succ_of_getElem? there
    have states : (aggregator.take event).states =
        History.replay initial (events.take (aggregator.taken + 1)) := by
      rw [take_states, longer, History.replay_concat, faithful.published]
    have stillGoing : (aggregator.take event).phase ≠ .ended := by
      rw [take_phase]
      exact going
    refine ⟨?_, ?_, ?_⟩
    · rw [take_taken]
      exact (List.getElem?_eq_some_iff.1 there).1
    · rw [take_taken]
      exact states
    · rw [take_notices, take_taken, closing_of_ne stillGoing, faithful.told, closing_of_ne going,
        ← take_states, states, longer, History.narrate_concat, List.append_nil, List.append_nil]
  · have going : aggregator.phase ≠ .ended := by
      rw [draining]
      exact fun same => by cases same
    refine ⟨faithful.within, faithful.published, ?_⟩
    change aggregator.notices ++ _ = _
    rw [faithful.told, closing_of_ne going, List.append_nil]
    rfl
  · have going : aggregator.phase ≠ .ended := by
      rw [serving]
      exact fun same => by cases same
    refine ⟨faithful.within, faithful.published, ?_⟩
    change aggregator.notices = _
    rw [faithful.told, closing_of_ne going]
    rfl

theorem maps (faithful : Faithful initial events aggregator) {index : Nat} {transition : Transition}
    {states : StateMap}
    (told : (aggregator.notices.filterMap Notice.move?)[index]? = some (transition, states)) :
    (History.moves events)[index]? = some transition ∧
      states = ((History.moves events).take (index + 1)).foldl StateMap.apply initial := by
  rw [faithful.told, List.filterMap_append, filterMap_move?_closing, List.append_nil] at told
  obtain ⟨there, states⟩ := History.getElem?_moves_narrate told
  have inside : index < (History.moves (events.take aggregator.taken)).length :=
    (List.getElem?_eq_some_iff.1 there).1
  rw [History.moves_take, List.getElem?_take_of_lt inside] at there
  rw [History.moves_take, List.take_take, Nat.min_eq_left (Nat.succ_le_of_lt inside)] at states
  exact ⟨there, states⟩

theorem published_eq (faithful : Faithful initial events aggregator) :
    aggregator.states = ((History.moves events).take
      (aggregator.notices.filterMap Notice.move?).length).foldl StateMap.apply initial := by
  rw [faithful.told, List.filterMap_append, filterMap_move?_closing, List.append_nil,
    History.length_moves_narrate, ← History.moves_take, ← History.replay_eq_foldl]
  exact faithful.published

end Faithful

/-- What so many observers hear of the events that were sent, and what they may rely on. -/
structure Delivers (observers : Nat) (initial : StateMap) (events : List Event)
    (aggregator : Aggregator) : Prop extends Faithful initial events aggregator where
  /-- Each event that was taken is told once, in its place. -/
  once : aggregator.notices.filterMap Notice.event? = events.take aggregator.taken
  /-- Each notice reaches one observer after the other, and all of them before the next one. -/
  called : aggregator.calls = aggregator.notices.flatMap fun notice =>
    (List.range observers).map fun observer => (observer, notice)
  /-- All observers hear the same. -/
  alike : ∀ observer < observers, aggregator.heard observer = aggregator.notices
  /-- With the i-th move comes the map that the first i moves lead to. -/
  maps : ∀ index transition states,
    (aggregator.notices.filterMap Notice.move?)[index]? = some (transition, states) →
      (History.moves events)[index]? = some transition ∧
        states = ((History.moves events).take (index + 1)).foldl StateMap.apply initial
  /-- The published map is the one that came with the last move. -/
  current : aggregator.states = ((History.moves events).take
    (aggregator.notices.filterMap Notice.move?).length).foldl StateMap.apply initial
  /-- The flag that comes at the end tells of the tasks that did not end well. -/
  flag : aggregator.states.hasFailures = true ↔
    ∃ state ∈ [TaskState.failed, .defaulted, .aborted], ∃ name, name ∈ aggregator.states.names state

theorem Faithful.delivers (faithful : Faithful initial events aggregator)
    (all : aggregator.CallsAll) :
    Delivers aggregator.observers initial events aggregator := by
  refine ⟨faithful, ?_, all, fun _ inside => all.heard_eq inside,
    fun _ _ _ told => faithful.maps told, faithful.published_eq, StateMap.hasFailures_iff⟩
  rw [faithful.told, List.filterMap_append, History.filterMap_event?_narrate,
    filterMap_event?_closing, List.append_nil]

/-- Once its end is signalled, the aggregator can go on until it is reached. -/
theorem exists_step? (signalled : (closed || complete) = true) (going : aggregator.phase ≠ .ended) :
    ∃ next, aggregator.step? events closed complete = some next := by
  unfold step?
  cases phase : aggregator.phase with
  | ended => exact absurd phase going
  | serving =>
      cases events[aggregator.taken]? with
      | some event => exact ⟨_, rfl⟩
      | none => exact ⟨_, if_pos signalled⟩
  | draining =>
      cases events[aggregator.taken]? with
      | some event => exact ⟨_, rfl⟩
      | none => exact ⟨_, rfl⟩

theorem settleWithin_ended (signalled : (closed || complete) = true) {fuel : Nat}
    (enough : aggregator.workLeft events ≤ fuel) :
    (settleWithin events closed complete fuel aggregator).phase = .ended := by
  induction fuel generalizing aggregator with
  | zero =>
      by_contra here
      obtain ⟨next, taken⟩ : ∃ next, aggregator.step? events closed complete = some next :=
        exists_step? signalled here
      have less := workLeft_lt taken
      omega
  | succ fuel inductionHypothesis =>
      rw [settleWithin]
      cases taken : aggregator.step? events closed complete with
      | none =>
          by_contra here
          obtain ⟨next, other⟩ : ∃ next, aggregator.step? events closed complete = some next :=
            exists_step? signalled here
          cases taken.symm.trans other
      | some next =>
          have less := workLeft_lt taken
          exact inductionHypothesis (by omega)

end Aggregator

/-! ## Whoever sends, and whenever the end is signalled -/

namespace Feed

open Relation (ReflTransGen)

/-- An aggregator with so many observers to which nothing has been sent yet. -/
def opening (observers : Nat) (initial : StateMap) : Feed :=
  ⟨(Aggregator.ofStates initial).attend observers, [], false, false⟩

/-- What can happen to an aggregator and its queue. -/
inductive Step (feed : Feed) : Feed → Prop
  | send (event : Event) : Step feed (feed.send event)
  | close : Step feed { feed with closed := true }
  | complete : Step feed { feed with complete := true }
  | aggregator {next : Aggregator}
      (taken : feed.aggregator.step? feed.events feed.closed feed.complete = some next) :
      Step feed { feed with aggregator := next }

variable {observers : Nat} {initial : StateMap} {feed next : Feed}

@[simp]
theorem aggregator_send (feed : Feed) (event : Event) :
    (feed.send event).aggregator = feed.aggregator := by
  unfold Feed.send
  split <;> rfl

theorem Step.events_prefix (step : feed.Step next) : feed.events <+: next.events := by
  cases step with
  | send event =>
      unfold Feed.send
      split
      · exact List.prefix_refl _
      · exact List.prefix_append _ _
  | close | complete | aggregator => exact List.prefix_refl _

theorem faithful (reached : ReflTransGen Step (opening observers initial) feed) :
    feed.aggregator.Faithful initial feed.events := by
  induction reached with
  | refl => exact .of_unattended Aggregator.Faithful.ofStates
  | tail _ step inductionHypothesis =>
      have grown := inductionHypothesis.grow step.events_prefix
      cases step with
      | send event =>
          rw [aggregator_send]
          exact grown
      | close | complete => exact grown
      | aggregator taken => exact grown.step? taken

/-- The observers stay, and all of them are called for every notice. -/
theorem callsAll (reached : ReflTransGen Step (opening observers initial) feed) :
    feed.aggregator.CallsAll ∧ feed.aggregator.observers = observers := by
  induction reached with
  | refl => exact ⟨rfl, rfl⟩
  | tail _ step inductionHypothesis =>
      cases step with
      | send event =>
          rw [aggregator_send]
          exact inductionHypothesis
      | close | complete => exact inductionHypothesis
      | aggregator taken =>
          obtain ⟨called, kept⟩ := inductionHypothesis.1.step? taken
          exact ⟨called, kept.trans inductionHypothesis.2⟩

theorem delivers (reached : ReflTransGen Step (opening observers initial) feed) :
    feed.aggregator.Delivers observers initial feed.events := by
  obtain ⟨called, same⟩ := callsAll reached
  exact same ▸ (faithful reached).delivers called

/-- An aggregator that has ended found the queue empty before. -/
theorem exists_drained (reached : ReflTransGen Step (opening observers initial) feed)
    (ended : feed.aggregator.phase = .ended) :
    ∃ drained, ReflTransGen Step (opening observers initial) drained ∧
      drained.aggregator.phase = .draining ∧
      drained.aggregator.taken = drained.events.length ∧
      ReflTransGen Step { drained with aggregator := drained.aggregator.conclude } feed ∧
      feed.aggregator = drained.aggregator.conclude := by
  induction reached with
  | refl => cases ended
  | tail before step inductionHypothesis =>
      rename_i middle last
      have still : last.aggregator = middle.aggregator → ∃ drained,
          ReflTransGen Step (opening observers initial) drained ∧
            drained.aggregator.phase = .draining ∧
            drained.aggregator.taken = drained.events.length ∧
            ReflTransGen Step { drained with aggregator := drained.aggregator.conclude } last ∧
            last.aggregator = drained.aggregator.conclude := by
        intro same
        obtain ⟨drained, first, phase, all, later, concluded⟩ := inductionHypothesis (same ▸ ended)
        exact ⟨drained, first, phase, all, later.tail step, same.trans concluded⟩
      cases step with
      | send event =>
          exact still (aggregator_send _ event)
      | close | complete => exact still rfl
      | aggregator taken =>
          rcases Aggregator.step?_cases taken with ⟨event, _, going, rfl⟩ |
            ⟨nothing, draining, rfl⟩ | ⟨_, _, _, rfl⟩
          · exact absurd ((Aggregator.take_phase _ event).symm.trans ended) going
          · have all : middle.aggregator.taken = middle.events.length :=
              Nat.le_antisymm (faithful before).within (List.getElem?_eq_none_iff.1 nothing)
            exact ⟨middle, before, draining, all, .refl, rfl⟩
          · cases ended

theorem reaches_settleWithin (feed : Feed) (fuel : Nat) : ReflTransGen Step feed
    { feed with aggregator :=
      feed.aggregator.settleWithin feed.events feed.closed feed.complete fuel } := by
  induction fuel generalizing feed with
  | zero => exact .refl
  | succ fuel inductionHypothesis =>
      rw [Aggregator.settleWithin]
      cases taken : feed.aggregator.step? feed.events feed.closed feed.complete with
      | none => exact .refl
      | some next =>
          exact .head (.aggregator taken) (inductionHypothesis { feed with aggregator := next })

theorem settle_ended (signalled : (feed.closed || feed.complete) = true) :
    feed.settle.aggregator.phase = .ended := by
  apply Aggregator.settleWithin_ended signalled
  unfold Aggregator.workLeft Aggregator.stepsLeft
  cases feed.aggregator.phase <;> simp only [AggregatorPhase.work] <;> omega

end Feed

/-! ## In a run -/

/-- A runner whose task has ended for the events sends no more of them. -/
theorem Runner.Fits.events_eq {handle? : String → Option Handle} {runner next : Runner}
    {scene after : Scene} {step : Step} (fits : runner.Fits)
    (ended : runner.logged.isTerminal = true) (act : runner.Act handle? scene step next after) :
    after.events = scene.events := by
  cases act with
  | announce phase =>
      simp only [Runner.Fits, phase] at fits
      simp only [Runner.logged, phase] at ended
      cases fits.source_active.symm.trans ended
  | fail phase =>
      simp only [Runner.Fits, phase] at fits
      simp only [Runner.logged, phase, fits.2.1] at ended
      cases ended
  | _ => rfl

namespace Run

variable {graph : Graph} {seeds : KeyMap Seed} {run next : Run} {step : Step}

theorem Orderly.logged_ended (orderly : Orderly graph seeds run) (sound : graph.Sound)
    (settled : run.aggregator.states.isSettled = true) {name : String} {runner : Runner}
    (found : run.find? name = some runner) : runner.logged.isTerminal = true := by
  have ended :=
    (orderly.places.isSettled_iff sound.distinct).1 settled name (orderly.name_mem found)
  rw [← orderly.logged found, orderly.sound.stateOf_eq_of_take ended]
  exact ended

/-- Nothing is sent once the run is declared complete or nobody is left to send. -/
theorem Orderly.events_eq (orderly : Orderly graph seeds run) (sound : graph.Sound)
    (attended : Attended run) (silent : run.complete = true ∨ run.isQuiet = true)
    (change : run.Change step next) : next.scene.events = run.scene.events := by
  have finished : ∀ {name runner}, run.find? name = some runner → runner.phase ≠ .gone →
      runner.logged.isTerminal = true := by
    intro name runner found here
    rcases silent with complete | quiet
    · exact orderly.logged_ended sound (attended.complete complete) found
    · cases name_of_find? found
      cases (isQuiet_of_found found here).symm.trans quiet
  cases change with
  | act found act => exact (orderly.fits found).events_eq (finished found act.not_gone) act
  | line found phase =>
      have ended := finished found (by rw [phase]; exact fun same => by cases same)
      have fits := orderly.fits found
      simp only [Runner.Fits, phase] at fits
      simp only [Runner.logged, phase, fits.2.1] at ended
      cases ended
  | cancel | aggregate => rfl
  | aside _ scene => rw [scene]

/-- The aggregator of a run tells of the events of the run, and of all of them at its end. -/
structure Heard (graph : Graph) (run : Run) : Prop where
  faithful : run.aggregator.Faithful (StateMap.allIn graph.names .init) run.scene.events
  whole : run.aggregator.phase = .ended → run.aggregator.taken = run.scene.events.length

theorem Heard.start {limit : Nat} {store : Store} {cancelled keeps saves : Bool}
    {slot : Option Snapshot} :
    Heard graph (start graph limit seeds store cancelled keeps saves slot) :=
  ⟨Aggregator.Faithful.ofStates, fun phase => by cases phase⟩

theorem Heard.change (heard : Heard graph run) (orderly : Orderly graph seeds run)
    (sound : graph.Sound) (attended : Attended run) (change : run.Change step next) :
    Heard graph next := by
  have grows : run.scene.events <+: next.scene.events := by
    rcases change.sent with same | ⟨event, more⟩
    · exact same ▸ List.prefix_refl _
    · exact more ▸ List.prefix_append _ _
  -- An aggregator that has ended takes no more events, so no more must be sent.
  have idle : next.aggregator = run.aggregator → Heard graph next := by
    intro same
    refine ⟨same ▸ heard.faithful.grow grows, ?_⟩
    rw [same]
    intro ended
    have silent := (attended.ended ended).imp id And.left
    rw [orderly.events_eq sound attended silent change]
    exact heard.whole ended
  cases change with
  | aggregate taken =>
      refine ⟨heard.faithful.step? taken, ?_⟩
      intro ended
      rcases Aggregator.step?_cases taken with ⟨event, _, going, rfl⟩ | ⟨nothing, _, rfl⟩ |
        ⟨_, _, _, rfl⟩
      · exact absurd ((Aggregator.take_phase _ event).symm.trans ended) going
      · exact Nat.le_antisymm heard.faithful.within (List.getElem?_eq_none_iff.1 nothing)
      · cases ended
  | act | line | cancel => exact idle rfl
  | aside _ _ same => exact idle same

end Run

open Relation (ReflTransGen)

/-- Whoever sends events and whenever its end is signalled, an aggregator tells each event once, in
its place, up to the moment at which it finds the queue empty for good, and then once that the run
is over, and however many observers there are, each of them is called for all of this; it comes to
that end when it is signalled.  In a run the end is signalled only when the published map says that
all tasks have ended; nothing is sent after that, so all that was ever sent is told. -/
theorem observers_hear_every_event :
    (∀ observers initial feed, ReflTransGen Feed.Step (Feed.opening observers initial) feed →
      feed.aggregator.Delivers observers initial feed.events ∧
      (feed.aggregator.phase = .ended → ∃ drained,
        ReflTransGen Feed.Step (Feed.opening observers initial) drained ∧
        drained.aggregator.phase = .draining ∧
        drained.aggregator.taken = drained.events.length ∧
        ReflTransGen Feed.Step { drained with aggregator := drained.aggregator.conclude } feed ∧
        feed.aggregator.notices = History.narrate initial drained.events ++
          [.complete feed.aggregator.states.hasFailures feed.aggregator.states]) ∧
      ((feed.closed || feed.complete) = true →
        ReflTransGen Feed.Step feed feed.settle ∧ feed.settle.aggregator.phase = .ended)) ∧
    (∀ (tasks : List Task) (graph : Graph), Graph.ofTasks tasks = .ok graph →
      ∀ (seeds : KeyMap Seed) (limit : Nat) (store : Store) (cancelled keeps saves : Bool)
        (slot : Option Snapshot) (observers : Nat) (steps : List Step) (run : Run),
      ((Run.start graph limit seeds store cancelled keeps saves slot).attend observers).steps?
          steps = some run →
        run.aggregator.Delivers observers (StateMap.allIn graph.names .init) run.scene.events ∧
        (run.complete = true → run.aggregator.states.isSettled = true ∧
          (∀ step next, run.step? step = some next → next.scene.events = run.scene.events) ∧
          (run.aggregator.phase = .ended ∨ ∃ next, run.step? .aggregator = some next)) ∧
        (run.aggregator.phase = .ended → run.aggregator.notices =
          History.narrate (StateMap.allIn graph.names .init) run.scene.events ++
            [.complete run.aggregator.states.hasFailures run.aggregator.states])) := by
  have whole : ∀ {initial events} {aggregator : Aggregator},
      aggregator.Faithful initial events → aggregator.phase = .ended →
      aggregator.taken = events.length → aggregator.notices = History.narrate initial events ++
        [.complete aggregator.states.hasFailures aggregator.states] := by
    intro initial events aggregator faithful ended all
    rw [faithful.told, all, List.take_length, Aggregator.closing, if_pos ended]
  refine ⟨?_, ?_⟩
  · intro observers initial feed reached
    refine ⟨Feed.delivers reached, ?_, fun signalled => ⟨feed.reaches_settleWithin _, ?_⟩⟩
    · intro ended
      obtain ⟨drained, before, draining, all, later, concluded⟩ := Feed.exists_drained reached ended
      have nothing : drained.events[drained.aggregator.taken]? = none :=
        List.getElem?_eq_none_iff.2 (Nat.le_of_eq all.symm)
      have taken : drained.aggregator.step? drained.events drained.closed drained.complete =
          some drained.aggregator.conclude := by
        rw [Aggregator.step?, draining, nothing]
      refine ⟨drained, before, draining, all, later, ?_⟩
      rw [concluded]
      exact whole ((Feed.faithful before).step? taken) rfl all
    · exact Feed.settle_ended signalled
  · intro tasks graph accepted seeds limit store cancelled keeps saves slot observers steps run
      course
    have sound := Graph.sound_of_ofTasks accepted
    obtain ⟨called, same⟩ := Run.callsAll_of_attended rfl rfl course
    -- The records of the run are those that it has when nobody looks.
    have alone := Run.steps?_of_attended rfl course
    have reached : Run.Orderly graph seeds run.unattended ∧ Run.Attended run.unattended ∧
        Run.Heard graph run.unattended := by
      have taken : Course (fun _ _ => True) _ steps run.unattended :=
        Course.of_steps? alone fun _ _ _ => trivial
      refine taken.invariant (P := fun run => Run.Orderly graph seeds run ∧ Run.Attended run ∧
        Run.Heard graph run) ⟨Run.Orderly.start, Run.Attended.start, Run.Heard.start⟩ ?_
      rintro run next step ⟨orderly, attended, heard⟩ _ change
      exact ⟨orderly.change change, attended.change orderly sound change,
        heard.change orderly sound attended change⟩
    obtain ⟨orderly, attended, heard⟩ := reached
    have faithful := heard.faithful.of_unattended
    refine ⟨same ▸ faithful.delivers called,
      fun complete => ⟨attended.complete complete, ?_, ?_⟩, ?_⟩
    · intro step next taken
      have after : run.unattended.step? step = some next.unattended := by
        rw [run.step?_unattended, taken]
        rfl
      have still :=
        orderly.events_eq sound attended (Or.inl complete) (Run.change_of_step? after)
      exact still
    · by_cases ended : run.aggregator.phase = .ended
      · exact Or.inl ended
      · obtain ⟨next, taken⟩ : ∃ next, run.aggregator.step? run.scene.events run.isQuiet
            run.complete = some next :=
          Aggregator.exists_step? (by rw [complete, Bool.or_true]) ended
        exact Or.inr ⟨{ run with aggregator := next }, by rw [Run.step?, taken]; rfl⟩
    · intro ended
      exact whole faithful ended (heard.whole ended)

/-- Everything that happens in a run of two tasks, of which one puts out a line of its log and the
other cannot be attempted. -/
def Run.attendedSteps : List Step :=
  List.replicate 9 (.runner "left") ++
    [.line "left" .info "half", .ended "left" (.report ⟨false, false, []⟩)] ++
      List.replicate 4 (.runner "left") ++ List.replicate 9 (.runner "right") ++
        [.ended "right" (.error .dataText)] ++ List.replicate 4 (.runner "right") ++
          List.replicate 8 .aggregator ++ [.conductor true, .aggregator, .aggregator]

/-- A queue in which an event waits when the end is signalled, with two observers. -/
def Feed.signalled (event : Event) : Feed :=
  { (opening 2 (StateMap.allIn ["only"] .init)).send event with complete := true }

theorem observers_hear_rivals :
    (∃ run, ((Run.start Graph.rivals 0 .empty .empty false false false none).attend 2).steps?
        Run.attendedSteps = some run ∧ run.complete = true ∧
      run.aggregator.states.isSettled = true ∧ run.aggregator.phase = .ended ∧
      run.scene.events.length = 8 ∧ run.aggregator.states.hasFailures = true ∧
      run.aggregator.calls.length = 18 ∧
      run.aggregator.heard 0 = run.aggregator.notices ∧
      run.aggregator.heard 1 = run.aggregator.notices ∧
      run.aggregator.notices =
        History.narrate (StateMap.allIn Graph.rivals.names .init) run.scene.events ++
          [.complete run.aggregator.states.hasFailures run.aggregator.states]) ∧
    ∃ drained : Feed, drained.aggregator.phase = .draining ∧
      (Feed.signalled (.moved ⟨"only", .init, .completed⟩)).settle.aggregator.notices =
        History.narrate (StateMap.allIn ["only"] .init) drained.events ++ [.complete
          (Feed.signalled (.moved ⟨"only", .init, .completed⟩)).settle.aggregator.states.hasFailures
          (Feed.signalled (.moved ⟨"only", .init, .completed⟩)).settle.aggregator.states] := by
  refine ⟨?_, ?_⟩
  · obtain ⟨run, course, complete, ended, sent, failed, calls⟩ :
        ∃ run, ((Run.start Graph.rivals 0 .empty .empty false false false none).attend 2).steps?
          Run.attendedSteps = some run ∧ run.complete = true ∧ run.aggregator.phase = .ended ∧
            run.scene.events.length = 8 ∧ run.aggregator.states.hasFailures = true ∧
              run.aggregator.calls.length = 18 :=
      ⟨_, rfl, rfl, rfl, rfl, rfl, rfl⟩
    obtain ⟨delivers, settled, told⟩ := observers_hear_every_event.2 _ _ Graph.rivals_accepted _ _ _
      _ _ _ _ _ _ _ course
    exact ⟨run, course, complete, (settled complete).1, ended, sent, failed, calls,
      delivers.alike 0 (by decide), delivers.alike 1 (by decide), told ended⟩
  · have reached : ReflTransGen Feed.Step (Feed.opening 2 (StateMap.allIn ["only"] .init))
        (Feed.signalled (.moved ⟨"only", .init, .completed⟩)) :=
      .tail (.single (.send _)) .complete
    obtain ⟨_, _, settles⟩ := observers_hear_every_event.1 _ _ _ reached
    obtain ⟨further, ended⟩ := settles rfl
    obtain ⟨_, drains, _⟩ := observers_hear_every_event.1 _ _ _ (reached.trans further)
    obtain ⟨drained, _, draining, _, _, told⟩ := drains ended
    exact ⟨drained, draining, told⟩

end JobGraph
