import JobGraph.Graph.Walk
import JobGraph.Proofs.Graph.ReverseEdges
import Mathlib.Data.List.Flatten
import Mathlib.Data.Nat.Find
import Mathlib.Logic.Function.Iterate

/-!
# Walks along dependencies and dependents

A walk keeps the names that it has visited and a stack of names to go to, on which a name may stand
several times.  Each turn takes a name from the stack; a new one is visited, and all that it leads
to is put on the stack.  In whatever order the names are taken, what is visited or on the stack can
be reached from the start, and what a visited name leads to is visited or on the stack.  So when the
stack is empty, the walk has visited just what can be reached.

It comes to that because every turn takes one name from the stack, and what is put there is put
there once for each edge from a name that can be reached.
-/

namespace JobGraph.Graph

open Relation (TransGen)

variable {next : String → List String} {names : List String} {start name other : String}

/-- What a walk has visited, and what it is to go to. -/
structure Walk where
  visited : NameSet
  stack : List String

namespace Walk

variable {before after walk : Walk}

/-- The beginning of a walk. -/
def beginning (next : String → List String) (start : String) : Walk := ⟨.empty, next start⟩

/-- One turn of a walk that takes some name from its stack. -/
inductive Turn (next : String → List String) : Walk → Walk → Prop
  | again {visited : NameSet} {name : String} {stack rest : List String}
      (taken : stack.Perm (name :: rest)) (old : name ∈ visited) :
      Turn next ⟨visited, stack⟩ ⟨visited, rest⟩
  | visit {visited : NameSet} {name : String} {stack rest pushed : List String}
      (taken : stack.Perm (name :: rest)) (new : name ∉ visited)
      (added : pushed.Perm (next name ++ rest)) :
      Turn next ⟨visited, stack⟩ ⟨visited.insert name, pushed⟩

/-- One turn that takes the last name and puts what follows at the end. -/
def turn (next : String → List String) (walk : Walk) : Walk :=
  match walk.stack.getLast? with
  | none => walk
  | some name =>
    if name ∈ walk.visited then ⟨walk.visited, walk.stack.dropLast⟩
    else ⟨walk.visited.insert name, walk.stack.dropLast ++ next name⟩

theorem turn_spec (running : walk.stack ≠ []) : Turn next walk (walk.turn next) := by
  have last := List.getLast?_eq_some_getLast running
  have taken : walk.stack.Perm (walk.stack.getLast running :: walk.stack.dropLast) := by
    have split := List.dropLast_append_getLast running
    exact (List.Perm.of_eq split.symm).trans List.perm_append_comm
  rw [turn, last]
  dsimp only
  split
  next old => exact .again taken old
  next new => exact .visit taken new List.perm_append_comm

/-! ## What is visited -/

/-- The name is visited, or is to be gone to. -/
def Met (walk : Walk) (name : String) : Prop := name ∈ walk.visited ∨ name ∈ walk.stack

theorem Turn.met (turn : Turn next before after) (met : before.Met other) : after.Met other := by
  cases turn with
  | again taken old =>
      rcases met with seen | onStack
      · exact Or.inl seen
      · rcases List.mem_cons.1 (taken.mem_iff.1 onStack) with same | left
        · exact Or.inl (same ▸ old)
        · exact Or.inr left
  | visit taken new added =>
      rcases met with seen | onStack
      · exact Or.inl (NameSet.mem_insert.2 (Or.inr seen))
      · rcases List.mem_cons.1 (taken.mem_iff.1 onStack) with same | left
        · exact Or.inl (NameSet.mem_insert.2 (Or.inl same))
        · exact Or.inr (added.mem_iff.2 (List.mem_append_right _ left))

/-- What is newly met comes next after something that was met. -/
theorem Turn.met_cases (turn : Turn next before after) (met : after.Met other) :
    before.Met other ∨ ∃ name, before.Met name ∧ other ∈ next name := by
  cases turn with
  | again taken old =>
      refine Or.inl (met.imp_right ?_)
      intro left
      exact taken.mem_iff.2 (List.mem_cons_of_mem _ left)
  | visit taken new added =>
      have onStack := taken.mem_iff.2 List.mem_cons_self
      rcases met with seen | pushed
      · rcases NameSet.mem_insert.1 seen with same | earlier
        · exact Or.inl (Or.inr (same ▸ onStack))
        · exact Or.inl (Or.inl earlier)
      · rcases List.mem_append.1 (added.mem_iff.1 pushed) with direct | left
        · exact Or.inr ⟨_, Or.inr onStack, direct⟩
        · exact Or.inl (Or.inr (taken.mem_iff.2 (List.mem_cons_of_mem _ left)))

/-- What comes next after a name that is newly visited is met. -/
theorem Turn.visited_cases (turn : Turn next before after) (seen : name ∈ after.visited) :
    name ∈ before.visited ∨ ∀ other ∈ next name, after.Met other := by
  cases turn with
  | again taken old => exact Or.inl seen
  | visit taken new added =>
      rcases NameSet.mem_insert.1 seen with same | earlier
      · refine Or.inr ?_
        intro other direct
        exact Or.inr (added.mem_iff.2 (List.mem_append_left _ (same ▸ direct)))
      · exact Or.inl earlier

/-- What is true of a walk from a start at every point. -/
structure Reaching (next : String → List String) (start : String) (walk : Walk) : Prop where
  reached : ∀ name, walk.Met name → TransGen (Leads next) start name
  first : ∀ name ∈ next start, walk.Met name
  further : ∀ name ∈ walk.visited, ∀ other ∈ next name, walk.Met other

theorem reaching_beginning (next : String → List String) (start : String) :
    Reaching next start (beginning next start) := by
  refine ⟨?_, fun name direct => Or.inr direct, ?_⟩
  · intro name met
    exact .single (met.resolve_left (NameSet.not_mem_empty name))
  · intro name visited
    exact absurd visited (NameSet.not_mem_empty name)

theorem Turn.reaching (turn : Turn next before after) (reaching : Reaching next start before) :
    Reaching next start after := by
  refine ⟨?_, fun name direct => turn.met (reaching.first name direct), ?_⟩
  · intro other met
    rcases turn.met_cases met with earlier | ⟨name, earlier, direct⟩
    · exact reaching.reached other earlier
    · exact (reaching.reached name earlier).tail direct
  · intro name seen other direct
    rcases turn.visited_cases seen with earlier | follows
    · exact turn.met (reaching.further name earlier other direct)
    · exact follows other direct

namespace Reaching

/-- A walk that has come to its end has visited what can be reached. -/
theorem mem_visited {visited : NameSet} (reaching : Reaching next start ⟨visited, []⟩) :
    name ∈ visited ↔ TransGen (Leads next) start name := by
  constructor
  · intro seen
    exact reaching.reached name (Or.inl seen)
  · intro reached
    induction reached with
    | single direct => exact (reaching.first _ direct).resolve_right List.not_mem_nil
    | tail _ direct seen =>
        exact (reaching.further _ seen _ direct).resolve_right List.not_mem_nil

theorem mem_names (reaching : Reaching next start walk)
    (known : ∀ name, ∀ other ∈ next name, other ∈ names) (met : walk.Met name) :
    name ∈ names := by
  obtain ⟨_, _, direct⟩ := Relation.TransGen.tail'_iff.1 (reaching.reached name met)
  exact known _ name direct

end Reaching

/-! ## How long it takes -/

/-- The number of edges from some names. -/
def edges (next : String → List String) (names : List String) : Nat := (names.flatMap next).length

theorem edges_le {visited : NameSet} (listed : ∀ name ∈ visited, name ∈ names) :
    edges next visited.toList ≤ edges next names := by
  obtain ⟨part, same, among⟩ := List.subperm_of_subset visited.nodup listed
  calc edges next visited.toList = edges next part := (same.symm.flatMap_right next).length_eq
    _ ≤ edges next names := (among.flatMap next).length_le

theorem edges_insert {visited : NameSet} (new : name ∉ visited) :
    edges next (visited.insert name).toList = (next name).length + edges next visited.toList := by
  have same : (visited.insert name).toList.Perm (name :: visited.toList) := by
    apply (List.perm_ext_iff_of_nodup (visited.insert name).nodup
      (List.nodup_cons.2 ⟨new, visited.nodup⟩)).2
    intro other
    rw [List.mem_cons]
    exact NameSet.mem_insert
  rw [edges, (same.flatMap_right next).length_eq, List.flatMap_cons, List.length_append, edges]

/-- A turn takes one name from the stack and adds one for each edge from what it visits. -/
theorem Turn.balance (turn : Turn next before after) :
    after.stack.length + 1 + edges next before.visited.toList =
      before.stack.length + edges next after.visited.toList := by
  cases turn with
  | again taken old =>
      dsimp only
      rw [taken.length_eq, List.length_cons]
  | visit taken new added =>
      dsimp only
      rw [edges_insert new, added.length_eq, taken.length_eq, List.length_append, List.length_cons]
      omega

/-- The turns of a walk, as long as it has names to go to. -/
theorem turns_balance (count : Nat)
    (running : ∀ earlier < count, ((turn next)^[earlier] walk).stack ≠ []) :
    ((turn next)^[count] walk).stack.length + count + edges next walk.visited.toList =
      walk.stack.length + edges next ((turn next)^[count] walk).visited.toList := by
  induction count with
  | zero => rfl
  | succ count inductionHypothesis =>
      have soFar := inductionHypothesis fun earlier below =>
        running earlier (Nat.lt_succ_of_lt below)
      have last : Turn next ((turn next)^[count] walk) (turn next ((turn next)^[count] walk)) :=
        turn_spec (running count (Nat.lt_succ_self count))
      have spent := last.balance
      rw [Function.iterate_succ_apply']
      omega

theorem turns_reaching (reaching : Reaching next start walk) (count : Nat) :
    Reaching next start ((turn next)^[count] walk) := by
  induction count with
  | zero => exact reaching
  | succ count inductionHypothesis =>
      rw [Function.iterate_succ_apply']
      by_cases done : ((turn next)^[count] walk).stack = []
      · rwa [turn, done]
      · exact (turn_spec done).reaching inductionHypothesis

/-- The walk from a start ends with these names visited, and takes one turn for each edge from the
start and from each of them. -/
structure EndsWith (next : String → List String) (start : String) (visited : NameSet) : Prop where
  running : ∀ count < (next start).length + edges next visited.toList,
    ((turn next)^[count] (beginning next start)).stack ≠ []
  ended : (turn next)^[(next start).length + edges next visited.toList] (beginning next start) =
    ⟨visited, []⟩

theorem exists_end (known : ∀ name, ∀ other ∈ next name, other ∈ names) (start : String) :
    ∃ count, ((turn next)^[count] (beginning next start)).stack = [] := by
  by_contra never
  have running : ∀ count, ((turn next)^[count] (beginning next start)).stack ≠ [] :=
    fun count done => never ⟨count, done⟩
  -- There are no more edges to follow than those from the start and from all names.
  set bound := (next start).length + edges next names
  have spent := turns_balance (bound + 1) fun earlier _ => running earlier
  have few : edges next ((turn next)^[bound + 1] (beginning next start)).visited.toList ≤
      edges next names := by
    apply edges_le
    intro name seen
    exact (turns_reaching (reaching_beginning next start) _).mem_names known (Or.inl seen)
  have begun : (beginning next start).stack.length = (next start).length := rfl
  omega

theorem exists_endsWith (known : ∀ name, ∀ other ∈ next name, other ∈ names) (start : String) :
    ∃ visited, EndsWith next start visited ∧ Reaching next start ⟨visited, []⟩ := by
  obtain ⟨count, done, running⟩ : ∃ count,
      ((turn next)^[count] (beginning next start)).stack = [] ∧
        ∀ earlier < count, ((turn next)^[earlier] (beginning next start)).stack ≠ [] :=
    ⟨Nat.find (exists_end known start), Nat.find_spec (exists_end known start),
      fun _ below => Nat.find_min (exists_end known start) below⟩
  have reaching := turns_reaching (reaching_beginning next start) count
  have spent := turns_balance count running
  generalize final : (turn next)^[count] (beginning next start) = walk at done reaching spent
  obtain ⟨visited, stack⟩ := walk
  cases done
  have turns : count = (next start).length + edges next visited.toList := by
    simpa [beginning, edges, NameSet.empty] using spent
  subst turns
  exact ⟨visited, ⟨running, final⟩, reaching⟩

end Walk

/-! ## The walks of a graph -/

theorem reachFrom_reaching {unseen stack : List String} {found : NameSet} (fresh : unseen.Nodup)
    (known : ∀ name, ∀ other ∈ next name, other ∈ names)
    (unmet : ∀ name ∈ names, name ∈ unseen ↔ name ∉ found)
    (reaching : Walk.Reaching next start ⟨found, stack⟩) :
    Walk.Reaching next start ⟨reachFrom next unseen found stack, []⟩ := by
  fun_induction reachFrom next unseen found stack with
  | case1 unseen found => exact reaching
  | case2 unseen found name stack waiting inductionHypothesis =>
      have listed : name ∈ names := reaching.mem_names known (Or.inr List.mem_cons_self)
      have new := (unmet name listed).1 waiting
      apply inductionHypothesis (fresh.erase name)
      · intro other otherListed
        rw [fresh.mem_erase_iff, unmet other otherListed, NameSet.mem_insert, not_or]
      · exact (Walk.Turn.visit (List.Perm.refl _) new (List.Perm.refl _)).reaching reaching
  | case3 unseen found name stack gone inductionHypothesis =>
      have listed : name ∈ names := reaching.mem_names known (Or.inr List.mem_cons_self)
      have old : name ∈ found := by simpa using mt (unmet name listed).2 gone
      exact inductionHypothesis fresh unmet
        ((Walk.Turn.again (List.Perm.refl _) old).reaching reaching)

section Graphs

variable {tasks : List Task} {graph : Graph}

theorem walk_of_sound (sound : graph.Sound)
    (known : ∀ name, ∀ other ∈ next name, other ∈ graph.names) (start : String) :
    Walk.EndsWith next start (graph.reach next start) ∧
      ∀ name, name ∈ graph.reach next start ↔ TransGen (Leads next) start name := by
  have reaching : Walk.Reaching next start ⟨graph.reach next start, []⟩ := by
    apply reachFrom_reaching sound.distinct known
    · intro name listed
      exact iff_of_true listed (NameSet.not_mem_empty name)
    · exact Walk.reaching_beginning next start
  obtain ⟨visited, ends, visitedReaching⟩ := Walk.exists_endsWith known start
  have same : visited = graph.reach next start := by
    apply NameSet.ext_mem
    intro name
    rw [visitedReaching.mem_visited, reaching.mem_visited]
  exact ⟨same ▸ ends, fun name => reaching.mem_visited⟩

theorem Sound.depends_known (sound : graph.Sound) (depends : Depends graph.tasks name other) :
    other ∈ graph.names := by
  obtain ⟨task, listed, _, member⟩ := depends
  exact sound.known task listed other member

theorem Sound.walk_ancestorsOf (sound : graph.Sound) (name : String) :
    Walk.EndsWith graph.dependenciesOf name (graph.ancestorsOf name) ∧
      ∀ other, other ∈ graph.ancestorsOf name ↔ TransGen (Depends graph.tasks) name other := by
  have edges : Leads graph.dependenciesOf = Depends graph.tasks := by
    funext first second
    exact propext sound.mem_dependenciesOf
  rw [← edges]
  apply walk_of_sound sound
  intro first second direct
  exact sound.depends_known (sound.mem_dependenciesOf.1 direct)

theorem Sound.walk_descendantsOf (sound : graph.Sound) (name : String) :
    Walk.EndsWith graph.dependentsOf name (graph.descendantsOf name) ∧
      ∀ other, other ∈ graph.descendantsOf name ↔
        TransGen (Leads graph.dependentsOf) name other := by
  apply walk_of_sound sound
  intro first second direct
  exact (mem_dependentsOf.1 direct).name_mem

theorem transGen_leads_dependentsOf :
    TransGen (Leads graph.dependentsOf) name other ↔ TransGen (Depends graph.tasks) other name := by
  have edges : Leads graph.dependentsOf = Function.swap (Depends graph.tasks) := by
    funext first second
    exact propext mem_dependentsOf
  rw [edges, Relation.transGen_swap]

/-- In an accepted graph a task is among the dependents of another as often as it lists it, by name.
What the two walks find is what can be reached along the dependencies and along the dependents,
never the start itself; one task is found from another along the dependencies just if the other is
found from it along the dependents.  Both walks end, and from an unknown name find nothing. -/
theorem walks_are_exact (accepted : ofTasks tasks = .ok graph) :
    (∀ dependency,
      ((dependentsMap graph.tasks).find? dependency).getD [] = graph.dependentsOf dependency ∧
      (graph.dependentsOf dependency).Pairwise (· ≤ ·) ∧
      ∀ name, (graph.dependentsOf dependency).count name =
        (graph.dependenciesOf name).count dependency) ∧
    (∀ name other,
      (other ∈ graph.ancestorsOf name ↔ TransGen (Depends tasks) name other) ∧
      (other ∈ graph.descendantsOf name ↔ TransGen (Leads graph.dependentsOf) name other) ∧
      (other ∈ graph.ancestorsOf name ↔ name ∈ graph.descendantsOf other)) ∧
    (∀ name, name ∉ graph.ancestorsOf name ∧ name ∉ graph.descendantsOf name) ∧
    (∀ name, Walk.EndsWith graph.dependenciesOf name (graph.ancestorsOf name) ∧
      Walk.EndsWith graph.dependentsOf name (graph.descendantsOf name)) ∧
    ∀ name, name ∉ graph.names →
      graph.ancestorsOf name = .empty ∧ graph.descendantsOf name = .empty := by
  have sound := sound_of_ofTasks accepted
  have order := inNameOrder_of_ofTasks accepted
  have ancestors : ∀ name other,
      other ∈ graph.ancestorsOf name ↔ TransGen (Depends graph.tasks) name other :=
    fun name => (sound.walk_ancestorsOf name).2
  have descendants : ∀ name other,
      other ∈ graph.descendantsOf name ↔ TransGen (Depends graph.tasks) other name := by
    intro name other
    rw [(sound.walk_descendantsOf name).2, transGen_leads_dependentsOf]
  refine ⟨?_, ?_, ?_, ?_, ?_⟩
  · intro dependency
    exact ⟨find?_dependentsMap graph.tasks dependency, dependentsIn_ordered order.ordered,
      fun name => count_dependentsIn sound.distinct⟩
  · intro name other
    refine ⟨?_, (sound.walk_descendantsOf name).2 other, ?_⟩
    · rw [ancestors, depends_iff_of_perm order.perm]
    · rw [ancestors, descendants]
  · intro name
    rw [ancestors, descendants]
    exact ⟨sound.acyclic name, sound.acyclic name⟩
  · intro name
    exact ⟨(sound.walk_ancestorsOf name).1, (sound.walk_descendantsOf name).1⟩
  · intro name unknown
    constructor
    · apply NameSet.ext_mem
      intro other
      rw [ancestors]
      refine iff_of_false ?_ (NameSet.not_mem_empty other)
      intro reached
      obtain ⟨_, depends, _⟩ := Relation.TransGen.head'_iff.1 reached
      exact unknown depends.name_mem
    · apply NameSet.ext_mem
      intro other
      rw [descendants]
      refine iff_of_false ?_ (NameSet.not_mem_empty other)
      intro reached
      obtain ⟨_, _, depends⟩ := Relation.TransGen.tail'_iff.1 reached
      exact unknown (sound.depends_known depends)

/-- Four tasks, of which the last lists one of the two before it twice. -/
def diamondTasks : List Task :=
  [⟨"join", "Sleep", ["left", "right", "left"], 1, .zero, .null⟩,
    ⟨"left", "Sleep", ["base"], 1, .zero, .null⟩, ⟨"right", "Sleep", ["base"], 1, .zero, .null⟩,
    ⟨"base", "Sleep", [], 1, .zero, .null⟩]

/-- The graph of the four tasks. -/
def diamond : Graph := ⟨sortByName diamondTasks⟩

theorem diamond_walks :
    ofTasks diamondTasks = .ok diamond ∧ diamond.dependentsOf "left" = ["join", "join"] ∧
      (diamond.dependentsOf "left").count "join" = (diamond.dependenciesOf "join").count "left" ∧
      (diamond.descendantsOf "base").toList = ["join", "left", "right"] ∧
      "base" ∈ diamond.ancestorsOf "join" ∧
      Walk.EndsWith diamond.dependenciesOf "join" (diamond.ancestorsOf "join") ∧
      diamond.ancestorsOf "roof" = .empty := by
  have accepted : ofTasks diamondTasks = .ok diamond := by cbv
  obtain ⟨edges, found, _, ends, unknown⟩ := walks_are_exact accepted
  have listed : (diamond.descendantsOf "base").toList = ["join", "left", "right"] := by cbv
  refine ⟨accepted, by decide, (edges "left").2.2 "join", listed, ?_, (ends "join").1, ?_⟩
  · rw [(found "join" "base").2.2, ← NameSet.mem_toList, listed]
    exact List.mem_cons_self
  · exact (unknown "roof" (by decide)).1

end Graphs

end JobGraph.Graph
