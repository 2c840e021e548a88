import JobGraph.Proofs.StateMaps
import JobGraph.Run.Event
import Mathlib.Data.List.Induction
import Mathlib.Data.Nat.Init

/-!
# What a list of events says

The events of a run tell the state of each task: it is the target of the last transition of the
task, or `init` if there is none.  `Sound` says that no transition contradicts those before it: it
starts where its task is, and no task leaves a terminal state.  The state maps that such events lead
to place every task where the events say it is.
-/

namespace JobGraph.History

/-- The state of a task after an event, given the state before it. -/
def stateAfter (name : String) (state : TaskState) : Event → TaskState
  | .moved transition => if transition.task = name then transition.target else state
  | .logged _ => state

/-- The state of a task after all events. -/
def stateOf (events : List Event) (name : String) : TaskState :=
  events.foldl (stateAfter name) .init

/-- The state map after an event. -/
def follow (map : StateMap) : Event → StateMap
  | .moved transition => map.apply transition
  | .logged _ => map

/-- The state map after all events. -/
def replay (map : StateMap) (events : List Event) : StateMap := events.foldl follow map

@[simp]
theorem stateOf_concat (events : List Event) (event : Event) (name : String) :
    stateOf (events ++ [event]) name = stateAfter name (stateOf events name) event := by
  rw [stateOf, List.foldl_append]
  rfl

theorem replay_concat (map : StateMap) (events : List Event) (event : Event) :
    replay map (events ++ [event]) = follow (replay map events) event := by
  rw [replay, List.foldl_append]
  rfl

theorem take_succ_of_getElem? {events : List Event} {position : Nat} {event : Event}
    (there : events[position]? = some event) :
    events.take (position + 1) = events.take position ++ [event] := by
  obtain ⟨inside, same⟩ := List.getElem?_eq_some_iff.1 there
  rw [List.take_succ_eq_append_getElem inside, same]

theorem take_of_isPrefix {α : Type} {front whole : List α} (grows : front <+: whole) {length : Nat}
    (within : length ≤ front.length) : whole.take length = front.take length := by
  obtain ⟨more, rfl⟩ := grows
  exact List.take_append_of_le_length within

/-- With one more event, an event is one of the former, at its place, or the new one at the end. -/
theorem getElem?_concat_cases {α : Type} {events : List α} {event other : α} {position : Nat}
    (there : (events ++ [event])[position]? = some other) :
    (position < events.length ∧ events[position]? = some other) ∨
      (position = events.length ∧ other = event) := by
  by_cases inside : position < events.length
  · rw [List.getElem?_append_left inside] at there
    exact Or.inl ⟨inside, there⟩
  · have final : position = events.length := by
      have bound := (List.getElem?_eq_some_iff.1 there).1
      rw [List.length_append, List.length_singleton] at bound
      omega
    rw [final, List.getElem?_concat_length, Option.some_inj] at there
    exact Or.inr ⟨final, there.symm⟩

/-- What each transition has to do with the events before it stays so with one more event, if that
one has to do so too. -/
theorem forall_moved_concat {P : List Event → Transition → Prop} {events : List Event}
    {event : Event}
    (before : ∀ (position : Nat) (transition : Transition),
      events[position]? = some (Event.moved transition) → P (events.take position) transition)
    (fits : ∀ transition, event = .moved transition → P events transition) (position : Nat)
    (transition : Transition) (there : (events ++ [event])[position]? = some (.moved transition)) :
    P ((events ++ [event]).take position) transition := by
  rcases getElem?_concat_cases there with ⟨inside, earlier⟩ | ⟨final, same⟩
  · rw [List.take_append_of_le_length (Nat.le_of_lt inside)]
    exact before position transition earlier
  · rw [final, List.take_left]
    exact fits transition same.symm

/-- A task that has left `init` was moved into its state. -/
theorem exists_move {events : List Event} {name : String} (left : stateOf events name ≠ .init) :
    ∃ (position : Nat) (source : TaskState),
      events[position]? = some (Event.moved ⟨name, source, stateOf events name⟩) := by
  induction events using List.reverseRecOn with
  | nil => exact absurd rfl left
  | append_singleton earlier event inductionHypothesis =>
      have kept : stateOf (earlier ++ [event]) name = stateOf earlier name →
          ∃ (position : Nat) (source : TaskState), (earlier ++ [event])[position]? =
            some (Event.moved ⟨name, source, stateOf (earlier ++ [event]) name⟩) := by
        intro same
        obtain ⟨position, source, there⟩ := inductionHypothesis (same ▸ left)
        refine ⟨position, source, ?_⟩
        rw [List.getElem?_append_left (List.getElem?_eq_some_iff.1 there).1, there, same]
      cases event with
      | logged line => exact kept (by rw [stateOf_concat, stateAfter])
      | moved transition =>
          by_cases same : transition.task = name
          · refine ⟨earlier.length, transition.source, ?_⟩
            rw [stateOf_concat, stateAfter, if_pos same, List.getElem?_concat_length]
            cases transition
            cases same
            rfl
          · exact kept (by rw [stateOf_concat, stateAfter, if_neg same])

/-- A task that changes its state was moved in between. -/
theorem exists_move_between {events : List Event} {name : String} {earlier later : Nat}
    (order : earlier ≤ later)
    (changed : stateOf (events.take later) name ≠ stateOf (events.take earlier) name) :
    ∃ (position : Nat) (transition : Transition), earlier ≤ position ∧ position < later ∧
      events[position]? = some (Event.moved transition) ∧ transition.task = name := by
  induction later, order using Nat.le_induction with
  | base => exact absurd rfl changed
  | succ later order inductionHypothesis =>
      by_cases before : stateOf (events.take later) name = stateOf (events.take earlier) name
      · have here : stateOf (events.take (later + 1)) name ≠ stateOf (events.take later) name :=
          before ▸ changed
        cases there : events[later]? with
        | none =>
            have short : events.length ≤ later := List.getElem?_eq_none_iff.1 there
            rw [List.take_of_length_le short,
              List.take_of_length_le (Nat.le_succ_of_le short)] at here
            exact absurd rfl here
        | some event =>
            rw [take_succ_of_getElem? there, stateOf_concat] at here
            cases event with
            | logged line => exact absurd rfl here
            | moved transition =>
                by_cases same : transition.task = name
                · exact ⟨later, transition, order, Nat.lt_succ_self later, there, same⟩
                · rw [stateAfter, if_neg same] at here
                  exact absurd rfl here
      · obtain ⟨position, transition, first, below, there, same⟩ := inductionHypothesis before
        exact ⟨position, transition, first, Nat.lt_succ_of_lt below, there, same⟩

/-! ## Sound histories -/

/-- Every transition is one of a listed task, starts where its task is, and leaves no terminal
state. -/
def Sound (names : List String) (events : List Event) : Prop :=
  ∀ (position : Nat) (transition : Transition), events[position]? = some (Event.moved transition) →
    transition.task ∈ names ∧
      transition.source = stateOf (events.take position) transition.task ∧
        transition.source.isTerminal = false

namespace Sound

variable {names : List String} {events : List Event}

theorem nil : Sound names [] := by
  intro position transition there
  simp at there

theorem take (sound : Sound names events) (length : Nat) : Sound names (events.take length) := by
  intro position transition there
  rw [List.getElem?_take] at there
  split at there
  next inside =>
    rw [List.take_take, Nat.min_eq_left (Nat.le_of_lt inside)]
    exact sound position transition there
  next => cases there

/-- One more event keeps a history sound if it is a sound one at its place. -/
theorem concat (sound : Sound names events) {event : Event}
    (fits : ∀ transition, event = .moved transition →
      transition.task ∈ names ∧ transition.source = stateOf events transition.task ∧
        transition.source.isTerminal = false) :
    Sound names (events ++ [event]) :=
  forall_moved_concat (P := fun before transition => transition.task ∈ names ∧
    transition.source = stateOf before transition.task ∧ transition.source.isTerminal = false)
    sound fits

/-- A task that has ended stays where it is. -/
theorem stateOf_of_terminal (sound : Sound names events) {name : String} {earlier : Nat}
    (ended : (stateOf (events.take earlier) name).isTerminal = true) {later : Nat}
    (order : earlier ≤ later) :
    stateOf (events.take later) name = stateOf (events.take earlier) name := by
  induction later, order using Nat.le_induction with
  | base => rfl
  | succ later _ inductionHypothesis =>
      cases there : events[later]? with
      | none =>
          have short : events.length ≤ later := List.getElem?_eq_none_iff.1 there
          rw [← inductionHypothesis, List.take_of_length_le short,
            List.take_of_length_le (Nat.le_succ_of_le short)]
      | some event =>
          rw [take_succ_of_getElem? there, stateOf_concat, inductionHypothesis]
          cases event with
          | logged line => rfl
          | moved transition =>
              have fits := sound later transition there
              by_cases same : transition.task = name
              · have active := fits.2.2
                rw [fits.2.1, same, inductionHypothesis, ended] at active
                cases active
              · rw [stateAfter, if_neg same]

/-- The same, for the state after all events. -/
theorem stateOf_eq_of_take (sound : Sound names events) {name : String} {length : Nat}
    (ended : (stateOf (events.take length) name).isTerminal = true) :
    stateOf events name = stateOf (events.take length) name := by
  by_cases inside : length ≤ events.length
  · have all := sound.stateOf_of_terminal ended inside
    rwa [List.take_length] at all
  · rw [List.take_of_length_le (by omega)]

/-- No transition of a task comes after one that ends it. -/
theorem not_moved_after_end (sound : Sound names events) {earlier later : Nat}
    {first second : Transition} (there : events[earlier]? = some (Event.moved first))
    (ends : first.target.isTerminal = true) (order : earlier < later)
    (again : events[later]? = some (Event.moved second)) : second.task ≠ first.task := by
  intro same
  have reached : stateOf (events.take (earlier + 1)) first.task = first.target := by
    rw [take_succ_of_getElem? there, stateOf_concat, stateAfter, if_pos rfl]
  have stays := sound.stateOf_of_terminal (reached ▸ ends) order
  have fits := sound later second again
  have active := fits.2.2
  rw [fits.2.1, same, stays, reached, ends] at active
  cases active

/-- A task has at most one transition into a terminal state. -/
theorem end_unique (sound : Sound names events) {left right : Nat} {first second : Transition}
    (there : events[left]? = some (Event.moved first)) (ends : first.target.isTerminal = true)
    (again : events[right]? = some (Event.moved second))
    (endsAgain : second.target.isTerminal = true)
    (same : second.task = first.task) : right = left := by
  rcases Nat.lt_trichotomy left right with before | equal | after
  · exact absurd same (sound.not_moved_after_end there ends before again)
  · exact equal.symm
  · exact absurd same.symm (sound.not_moved_after_end again endsAgain after there)

/-- The map that a sound history leads to places every task where the history says it is. -/
theorem places (sound : Sound names events) :
    (replay (StateMap.allIn names .init) events).Places names (stateOf events) := by
  induction events using List.reverseRecOn with
  | nil => exact StateMap.places_allIn names .init
  | append_singleton earlier event inductionHypothesis =>
      have before : Sound names earlier := by
        have prefixSound := sound.take earlier.length
        rwa [List.take_left] at prefixSound
      rw [replay_concat]
      cases event with
      | logged line =>
          have same : stateOf (earlier ++ [.logged line]) = stateOf earlier := by
            funext name
            rw [stateOf_concat, stateAfter]
          rw [same]
          exact inductionHypothesis before
      | moved transition =>
          have fits := sound earlier.length transition List.getElem?_concat_length
          rw [List.take_left] at fits
          have placed := (inductionHypothesis before).apply fits.1 fits.2.1
          have same : stateOf (earlier ++ [.moved transition]) = fun name =>
              if name = transition.task then transition.target else stateOf earlier name := by
            funext name
            simp only [stateOf_concat, stateAfter, eq_comm]
          rw [same]
          exact placed

end Sound

end JobGraph.History
