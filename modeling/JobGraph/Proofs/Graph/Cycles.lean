import JobGraph.Proofs.DependencyOrder
import Mathlib.Logic.Relation

/-!
# Cycles of dependencies

The finishing order of a depth first walk lists every task before all that it leads to, except for
those that lead back to it.  For when the walk is done with a task, whatever the task leads to has
been met, and what has been met and is not done with stands below it on the stack and leads to it.
`Searching` says this of the walk at every point.

So a dependency that is listed after its task lies on a cycle with it, and this is the name that a
refused list of tasks is refused with.
-/

namespace JobGraph.Graph

open Relation (TransGen)

/-- A task of the list names a dependency. -/
def Depends (tasks : List Task) (name dependency : String) : Prop :=
  ∃ task ∈ tasks, task.name = name ∧ dependency ∈ task.dependsOn

/-- No task depends on itself, directly or through others. -/
def Acyclic (tasks : List Task) : Prop := ∀ name, ¬TransGen (Depends tasks) name name

/-! ## The walk along the edges -/

section Walk

variable {next : String → List String} {names unseen finished stack : List String}

/-- One step along the edges. -/
def Leads (next : String → List String) (name other : String) : Prop := other ∈ next name

/-- Each finished task is listed before all that it leads to, or that leads back to it. -/
def Settled (next : String → List String) (finished : List String) : Prop :=
  ∀ later name earlier, finished = later ++ name :: earlier → ∀ other ∈ next name,
    other ∈ name :: earlier ∨ TransGen (Leads next) other name

/-- What stands above a task on the stack. -/
def above (name : String) (stack : List String) : List String := stack.takeWhile (· ≠ name)

theorem above_self (name : String) (stack : List String) : above name (name :: stack) = [] :=
  List.takeWhile_cons_of_neg (by simp)

theorem above_cons {name other : String} (apart : other ≠ name) (stack : List String) :
    above name (other :: stack) = other :: above name stack :=
  List.takeWhile_cons_of_pos (by simpa using apart)

theorem above_append {name : String} {front : List String} (absent : name ∉ front)
    (back : List String) : above name (front ++ back) = front ++ above name back := by
  apply List.takeWhile_append_of_pos
  intro other member
  simpa using fun same : other = name => absent (same ▸ member)

/-- What is true of a walk at every point. -/
structure Searching (next : String → List String) (names unseen finished stack : List String) :
    Prop where
  fresh : unseen.Nodup
  met : ∀ name ∈ names, name ∈ unseen ∨ name ∈ finished ∨ name ∈ stack
  settled : Settled next finished
  /-- A task that is met and not done with leads to all above it on the stack. -/
  leads : ∀ name ∈ stack, name ∉ unseen → name ∉ finished →
    ∀ other ∈ above name stack, TransGen (Leads next) name other
  /-- What such a task leads to directly is met or stands above it. -/
  pushed : ∀ name ∈ stack, name ∉ unseen → name ∉ finished →
    ∀ other ∈ next name, other ∈ unseen → other ∈ above name stack

namespace Searching

variable {name : String}

/-- A task is met. -/
theorem meet (searching : Searching next names unseen finished (name :: stack))
    (unmet : name ∈ unseen) :
    Searching next names (unseen.erase name) finished
      (((next name).filter (· ∈ unseen.erase name)).reverse ++ name :: stack) := by
  set new := ((next name).filter (· ∈ unseen.erase name)).reverse with newEq
  have mem_new : ∀ {other}, other ∈ new ↔ other ∈ next name ∧ other ∈ unseen.erase name := by
    simp [newEq]
  -- Whoever is met below the new ones is the task itself, or was met before it.
  have onStack : ∀ {other}, other ∈ new ++ name :: stack → other ∉ unseen.erase name →
      above other (new ++ name :: stack) = new ++ above other (name :: stack) ∧
        (other = name ∨ other ∈ name :: stack ∧ other ∉ unseen ∧ other ≠ name) := by
    intro other member notUnseen
    have old : other ∉ new := fun added => notUnseen (mem_new.1 added).2
    refine ⟨above_append old _, ?_⟩
    by_cases same : other = name
    · exact Or.inl same
    · have below := (List.mem_append.1 member).resolve_left old
      exact Or.inr ⟨below, fun unmet => notUnseen ((List.mem_erase_of_ne same).2 unmet), same⟩
  refine ⟨searching.fresh.erase name, ?_, searching.settled, ?_, ?_⟩
  · intro other listed
    by_cases same : other = name
    · exact Or.inr (Or.inr (by simp [same]))
    · rcases searching.met other listed with waiting | done | below
      · exact Or.inl ((List.mem_erase_of_ne same).2 waiting)
      · exact Or.inr (Or.inl done)
      · exact Or.inr (Or.inr (List.mem_append_right _ below))
  · intro first member notUnseen notDone other higher
    obtain ⟨split, same | ⟨below, met, apart⟩⟩ := onStack member notUnseen
    · subst same
      rw [split, above_self, List.append_nil] at higher
      exact .single (mem_new.1 higher).1
    · have led := searching.leads first below met notDone
      rw [split, List.mem_append] at higher
      rcases higher with added | between
      · have led_name : TransGen (Leads next) first name :=
          led name (by rw [above_cons apart.symm]; exact List.mem_cons_self)
        exact led_name.tail (mem_new.1 added).1
      · exact led other between
  · intro first member notUnseen notDone other direct waiting
    obtain ⟨split, same | ⟨below, met, apart⟩⟩ := onStack member notUnseen
    · subst same
      rw [split]
      exact List.mem_append_left _ (mem_new.2 ⟨direct, waiting⟩)
    · rw [split]
      exact List.mem_append_right _
        (searching.pushed first below met notDone other direct (List.mem_of_mem_erase waiting))

/-- A task that was met is taken from the stack. -/
theorem drop (searching : Searching next names unseen finished (name :: stack))
    (met : name ∉ unseen) {done : List String} (settled : Settled next done)
    (kept : finished ⊆ done) (listed : name ∈ done) :
    Searching next names unseen done stack := by
  have between : ∀ {other}, other ∉ done →
      above other (name :: stack) = name :: above other stack := by
    intro other notDone
    apply above_cons
    rintro rfl
    exact notDone listed
  refine ⟨searching.fresh, ?_, settled, ?_, ?_⟩
  · intro other member
    rcases searching.met other member with waiting | before | onStack
    · exact Or.inl waiting
    · exact Or.inr (Or.inl (kept before))
    · rcases List.mem_cons.1 onStack with same | below
      · exact Or.inr (Or.inl (same ▸ listed))
      · exact Or.inr (Or.inr below)
  · intro first member notUnseen notDone other higher
    apply searching.leads first (List.mem_cons_of_mem _ member) notUnseen
      (fun before => notDone (kept before)) other
    rw [between notDone]
    exact List.mem_cons_of_mem _ higher
  · intro first member notUnseen notDone other direct waiting
    have higher := searching.pushed first (List.mem_cons_of_mem _ member) notUnseen
      (fun before => notDone (kept before)) other direct waiting
    rw [between notDone] at higher
    exact (List.mem_cons.1 higher).resolve_left fun same => met (same ▸ waiting)

/-- When the walk is done with a task, all that the task leads to is done with or leads back. -/
theorem settled_cons (known : ∀ name, ∀ other ∈ next name, other ∈ names)
    (searching : Searching next names unseen finished (name :: stack))
    (met : name ∉ unseen) (notDone : name ∉ finished) : Settled next (name :: finished) := by
  intro later first earlier split other direct
  cases later with
  | cons head later =>
      obtain ⟨rfl, tail⟩ := List.cons.inj split
      exact searching.settled later first earlier tail other direct
  | nil =>
      obtain ⟨rfl, rfl⟩ := List.cons.inj split
      by_cases waiting : other ∈ unseen
      · have higher := searching.pushed name List.mem_cons_self met notDone other direct waiting
        rw [above_self] at higher
        cases higher
      by_cases done : other ∈ name :: finished
      · exact Or.inl done
      rw [List.mem_cons, not_or] at done
      have finishedOrStack := (searching.met other (known name other direct)).resolve_left waiting
      have onStack := finishedOrStack.resolve_left done.2
      refine Or.inr (searching.leads other onStack waiting done.2 name ?_)
      rw [above_cons (Ne.symm done.1)]
      exact List.mem_cons_self

end Searching

theorem finishFrom_searching (known : ∀ name, ∀ other ∈ next name, other ∈ names)
    (searching : Searching next names unseen finished stack) :
    Searching next names (finishFrom next unseen finished stack).1
      (finishFrom next unseen finished stack).2 [] := by
  fun_induction finishFrom next unseen finished stack with
  | case1 unseen finished => exact searching
  | case2 unseen finished name stack unmet unseen' inductionHypothesis =>
      exact inductionHypothesis (searching.meet unmet)
  | case3 unseen finished name stack met done inductionHypothesis =>
      exact inductionHypothesis
        (searching.drop met searching.settled (List.Subset.refl _) done)
  | case4 unseen finished name stack met notDone inductionHypothesis =>
      exact inductionHypothesis (searching.drop met (searching.settled_cons known met notDone)
        (List.subset_cons_self _ _) List.mem_cons_self)

theorem finishAll_searching (known : ∀ name, ∀ other ∈ next name, other ∈ names)
    (starts : List String) (searching : Searching next names unseen finished []) :
    Searching next names (finishAll next starts (unseen, finished)).1
      (finishAll next starts (unseen, finished)).2 [] := by
  induction starts generalizing unseen finished with
  | nil => exact searching
  | cons name rest inductionHypothesis =>
      rw [finishAll]
      split
      next unmet =>
        have onStack : Searching next names unseen finished [name] := by
          refine ⟨searching.fresh, ?_, searching.settled, ?_, ?_⟩
          · intro other listed
            rcases searching.met other listed with waiting | done | never
            · exact Or.inl waiting
            · exact Or.inr (Or.inl done)
            · cases never
          · intro other member notUnseen
            exact absurd (List.mem_singleton.1 member ▸ unmet) notUnseen
          · intro other member notUnseen
            exact absurd (List.mem_singleton.1 member ▸ unmet) notUnseen
        exact inductionHypothesis (finishFrom_searching known onStack)
      next => exact inductionHypothesis searching

/-- The finishing order lists each task before all that it leads to, or that leads back to it. -/
theorem settled_finishingOrder (fresh : names.Nodup)
    (known : ∀ name, ∀ other ∈ next name, other ∈ names) :
    Settled next (finishingOrder names next) := by
  have start : Searching next names names [] [] := by
    refine ⟨fresh, fun _ listed => Or.inl listed, ?_, by simp, by simp⟩
    intro later name earlier split
    simp at split
  exact (finishAll_searching known names start).settled

end Walk

/-! ## The search against the edges -/

section Search

variable {previous : String → List String}

/-- The first name on a stack that a search against the edges has not met, with what it has met and
what is on the stack after that. -/
def nextFound? (previous : String → List String) (met : List String) :
    List String → Option (String × List String × List String)
  | [] => none
  | name :: stack =>
    if name ∈ met then nextFound? previous met stack
    else
      some (name, name :: met,
        ((previous name).filter (· ∉ name :: met)).reverse ++ stack)

/-- The second name that a search from one of the names in an order finds; what earlier searches
have met is not found again. -/
def secondFound? (previous : String → List String) (met : List String) : List String → Option String
  | [] => none
  | start :: rest =>
    match nextFound? previous met [start] with
    | none => secondFound? previous met rest
    | some (_, met, stack) =>
      match nextFound? previous met stack with
      | some (second, _, _) => some second
      | none => secondFound? previous met rest

/-- As long as every search finds only its start, the second search finds what is not listed
earlier. -/
theorem secondFound?_eq {order met : List String} (once : order.Nodup)
    (unmet : ∀ name ∈ order, name ∉ met) :
    secondFound? previous met order = firstUnordered? previous met order := by
  induction order generalizing met with
  | nil => rfl
  | cons name rest inductionHypothesis =>
      have new := unmet name List.mem_cons_self
      obtain ⟨apart, restOnce⟩ := List.nodup_cons.1 once
      have restUnmet : ∀ other ∈ rest, other ∉ name :: met := by
        intro other member again
        rcases List.mem_cons.1 again with same | before
        · exact apart (same ▸ member)
        · exact unmet other (List.mem_cons_of_mem _ member) before
      rw [firstUnordered?, secondFound?, nextFound?, if_neg new, List.append_nil,
        ← inductionHypothesis restOnce restUnmet]
      dsimp only
      cases found : ((previous name).filter (· ∉ name :: met)).reverse with
      | nil =>
          have empty := List.reverse_eq_nil_iff.1 found
          rw [empty, nextFound?]
          rfl
      | cons second stack =>
          have last : ((previous name).filter (· ∉ name :: met)).getLast? = some second := by
            rw [List.getLast?_eq_head?_reverse, found, List.head?_cons]
          have notMet : second ∉ name :: met := by
            have member : second ∈ (previous name).filter (· ∉ name :: met) := by
              rw [← List.mem_reverse, found]
              exact List.mem_cons_self
            simpa using (List.mem_filter.1 member).2
          rw [last, nextFound?, if_neg notMet]

/-- What the second search finds is listed later than a name that it stands before. -/
theorem exists_of_firstUnordered? {order earlier : List String} {later : String}
    (found : firstUnordered? previous earlier order = some later) :
    ∃ before name after, order = before ++ name :: after ∧ later ∈ previous name ∧
      later ∉ before ∧ later ≠ name ∧ later ∉ earlier := by
  induction order generalizing earlier with
  | nil => cases found
  | cons head rest inductionHypothesis =>
      rw [firstUnordered?] at found
      split at found
      next other last =>
        cases found
        have member := List.mem_filter.1 (List.mem_of_getLast? last)
        have absent : later ∉ head :: earlier := by simpa using member.2
        rw [List.mem_cons, not_or] at absent
        exact ⟨[], head, rest, rfl, member.1, List.not_mem_nil, absent.1, absent.2⟩
      next =>
        obtain ⟨before, name, after, split, precedes, notBefore, apart, absent⟩ :=
          inductionHypothesis found
        rw [List.mem_cons, not_or] at absent
        refine ⟨head :: before, name, after, by rw [split, List.cons_append], precedes, ?_, apart,
          absent.2⟩
        rw [List.mem_cons, not_or]
        exact ⟨absent.1, notBefore⟩

end Search

/-! ## Tasks on a cycle -/

section Tasks

variable {tasks : List Task} {name other : String}

theorem mem_dependentsIn : other ∈ dependentsIn tasks name ↔ Depends tasks other name := by
  simp only [dependentsIn, Depends, List.mem_flatMap, List.mem_map, List.mem_filter,
    decide_eq_true_eq]
  constructor
  · rintro ⟨task, listed, dependency, ⟨depends, rfl⟩, same⟩
    exact ⟨task, listed, same, depends⟩
  · rintro ⟨task, listed, same, depends⟩
    exact ⟨task, listed, name, ⟨depends, rfl⟩, same⟩

theorem leads_successors : Leads (successors tasks) name other ↔ Depends tasks other name := by
  rw [Leads, successors, mem_distinct, mem_dependentsIn]

theorem depends_of_mem_predecessors (precedes : other ∈ predecessors tasks name) :
    Depends tasks name other := by
  rw [predecessors] at precedes
  split at precedes
  next task found =>
    have same : task.name = name := by simpa using List.find?_some found
    exact ⟨task, List.mem_of_find?_eq_some found, same, (mem_distinct _).1 precedes⟩
  next => cases precedes

theorem Depends.name_mem (depends : Depends tasks name other) : name ∈ tasks.map Task.name := by
  obtain ⟨task, listed, rfl, _⟩ := depends
  exact List.mem_map_of_mem listed

theorem transGen_leads_successors :
    TransGen (Leads (successors tasks)) name other ↔ TransGen (Depends tasks) other name := by
  have same : Leads (successors tasks) = Function.swap (Depends tasks) := by
    funext first second
    exact propext leads_successors
  rw [same, Relation.transGen_swap]

/-- The task that is found out of order among some tasks, if there is one. -/
def cycleOf? (tasks : List Task) : Option String :=
  cycleMember? (tasks.map Task.name) (successors tasks) (predecessors tasks)

theorem secondFound?_eq_cycleOf? (fresh : (tasks.map Task.name).Nodup) :
    secondFound? (predecessors tasks) []
      (finishingOrder (tasks.map Task.name) (successors tasks)) = cycleOf? tasks :=
  secondFound?_eq (finishingOrder_nodup fresh) fun _ _ => List.not_mem_nil

/-- A task that is found out of order depends on itself through others. -/
theorem cycle_of_cycleOf? (fresh : (tasks.map Task.name).Nodup)
    (known : ∀ name dependency, Depends tasks name dependency → dependency ∈ tasks.map Task.name)
    (found : cycleOf? tasks = some name) : TransGen (Depends tasks) name name := by
  obtain ⟨before, task, after, split, precedes, notBefore, apart, _⟩ :=
    exists_of_firstUnordered? found
  have depends := depends_of_mem_predecessors precedes
  -- The dependency is in the order, so it is listed after the task.
  have listed : name ∈ finishingOrder (tasks.map Task.name) (successors tasks) :=
    mem_finishingOrder fresh (known task name depends)
  rw [split, List.mem_append, List.mem_cons] at listed
  obtain ⟨middle, rest, rfl⟩ :=
    List.append_of_mem ((listed.resolve_left notBefore).resolve_left apart)
  have splitLater : finishingOrder (tasks.map Task.name) (successors tasks) =
      (before ++ task :: middle) ++ name :: rest := by simp [split]
  have settled : Settled (successors tasks)
      (finishingOrder (tasks.map Task.name) (successors tasks)) := by
    apply settled_finishingOrder fresh
    intro first second leads
    exact (leads_successors.1 leads).name_mem
  have once : (finishingOrder (tasks.map Task.name) (successors tasks)).Nodup :=
    finishingOrder_nodup fresh
  rcases settled _ _ _ splitLater task (leads_successors.2 depends) with earlier | back
  · rw [splitLater, List.nodup_append] at once
    exact absurd rfl (once.2.2 task (by simp) task earlier)
  · exact (transGen_leads_successors.1 back).tail depends

/-- A sound graph has no cycle. -/
theorem Sound.acyclic {graph : Graph} (sound : graph.Sound) : Acyclic graph.tasks := by
  have onTasks : ∀ name ∈ graph.names, ¬TransGen (Depends graph.tasks) name name := by
    refine sound.induct (P := fun name => ¬TransGen (Depends graph.tasks) name name) ?_
    intro task listed free loop
    obtain ⟨dependency, depends, back⟩ := Relation.TransGen.head'_iff.1 loop
    obtain ⟨same, sameListed, sameName, member⟩ := depends
    cases sound.task_unique sameListed listed sameName
    exact free dependency member (.tail' back ⟨_, listed, rfl, member⟩)
  intro name loop
  obtain ⟨dependency, depends, _⟩ := Relation.TransGen.head'_iff.1 loop
  exact onTasks name depends.name_mem loop

theorem depends_iff_of_perm {others : List Task} (same : tasks.Perm others) :
    Depends tasks = Depends others := by
  funext name dependency
  simp only [Depends, same.mem_iff]

end Tasks

end JobGraph.Graph
