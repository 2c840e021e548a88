import JobGraph.Graph.Selection
import JobGraph.Proofs.Graph.Walks

/-!
# What a selection leaves out

A selection can be resolved by narrowing: of all tasks those are kept that one walk finds from the
target to run to, of these the ones that the other walk finds from the target to run from, and of
these the ones that are not named to be skipped.  All other tasks are left out.  Since the walks
find just what can be reached, so does a rule that speaks of dependencies alone: a task is left out
that is named, that the one target does not reach, or that does not reach the other target.
-/

namespace JobGraph

open Relation (TransGen)
open JobGraph.Graph (Depends)

theorem Graph.contains_iff {graph : Graph} {name : String} :
    graph.contains name ↔ name ∈ graph.names := by
  rw [contains, find?, findTask?, List.find?_isSome, names, List.mem_map]
  simp only [beq_iff_eq]

namespace Selection

variable {tasks : List Task} {graph : Graph} {selection : Selection} {name : String}

/-! ## By narrowing -/

/-- What is left of some names if a target is given: the target, and what is reached from it. -/
def narrow (target : Option String) (reached : String → NameSet) (names : NameSet) : NameSet :=
  match target with
  | none => names
  | some target => names.filter fun name => decide (name ∈ (reached target).insert target)

theorem mem_narrow {target : Option String} {reached : String → NameSet} {names : NameSet} :
    name ∈ narrow target reached names ↔
      name ∈ names ∧
        target.all fun target => name == target || decide (name ∈ reached target) := by
  cases target with
  | none => simp [narrow]
  | some target =>
      simp [narrow, NameSet.mem_filter, NameSet.mem_insert]

theorem mem_foldl_erase {erased : List String} {names : NameSet} :
    name ∈ erased.foldl NameSet.erase names ↔ name ∈ names ∧ name ∉ erased := by
  induction erased generalizing names with
  | nil => simp
  | cons head rest inductionHypothesis =>
      rw [List.foldl_cons, inductionHypothesis, NameSet.mem_erase, List.mem_cons, not_or]
      tauto

/-- What remains of all tasks when they are narrowed step by step. -/
def kept (selection : Selection) (graph : Graph) : NameSet :=
  let upstream := narrow selection.runTo graph.ancestorsOf (.ofList graph.names)
  let downstream := narrow selection.runFrom graph.descendantsOf upstream
  selection.skip.foldl NameSet.erase downstream

theorem mem_kept :
    name ∈ selection.kept graph ↔ name ∈ graph.names ∧ selection.keeps graph name := by
  rw [kept, mem_foldl_erase, mem_narrow, mem_narrow, NameSet.mem_ofList, keeps, Bool.and_eq_true,
    Bool.and_eq_true, Bool.not_eq_true', List.contains_eq_mem, decide_eq_false_iff_not, and_assoc,
    and_assoc, and_assoc]

/-! ## By dependencies -/

/-- Why a selection leaves a task out, where all that counts is which task reaches which one along
its dependencies. -/
inductive LeavesOut (selection : Selection) (depends : String → String → Prop) (name : String) :
    Prop
  | named (listed : name ∈ selection.skip)
  | beyond {target : String} (upTo : selection.runTo = some target) (other : name ≠ target)
      (unreached : ¬TransGen depends target name)
  | before {target : String} (startingAt : selection.runFrom = some target) (other : name ≠ target)
      (unreached : ¬TransGen depends name target)

/-- The first name that a selection mentions and that is no task. -/
def FirstUnknown (selection : Selection) (graph : Graph) (name : String) : Prop :=
  name ∉ graph.names ∧ ∃ earlier later,
    selection.mentioned = earlier ++ name :: later ∧ ∀ other ∈ earlier, other ∈ graph.names

theorem keeps_iff (sound : graph.Sound) :
    selection.keeps graph name ↔
      (∀ target, selection.runTo = some target →
        name = target ∨ TransGen (Depends graph.tasks) target name) ∧
      (∀ target, selection.runFrom = some target →
        name = target ∨ TransGen (Depends graph.tasks) name target) ∧
      name ∉ selection.skip := by
  have ancestors : ∀ target,
      name ∈ graph.ancestorsOf target ↔ TransGen (Depends graph.tasks) target name :=
    fun target => (sound.walk_ancestorsOf target).2 name
  have descendants : ∀ target,
      name ∈ graph.descendantsOf target ↔ TransGen (Depends graph.tasks) name target := by
    intro target
    rw [(sound.walk_descendantsOf target).2, Graph.transGen_leads_dependentsOf]
  simp only [keeps, Bool.and_eq_true, Option.all_eq_true, Bool.or_eq_true, beq_iff_eq,
    decide_eq_true_eq, Bool.not_eq_true', List.contains_eq_mem, decide_eq_false_iff_not, ancestors,
    descendants, and_assoc]

theorem leavesOut_iff_not_keeps (sound : graph.Sound) :
    selection.LeavesOut (Depends graph.tasks) name ↔ ¬selection.keeps graph name := by
  rw [keeps_iff sound]
  constructor
  · rintro leaves ⟨upstream, downstream, unnamed⟩
    cases leaves with
    | named listed => exact unnamed listed
    | beyond upTo other unreached => exact (upstream _ upTo).elim other unreached
    | before startingAt other unreached => exact (downstream _ startingAt).elim other unreached
  · intro unkept
    by_contra never
    apply unkept
    refine ⟨?_, ?_, fun listed => never (.named listed)⟩
    · intro target upTo
      by_contra neither
      exact never (.beyond upTo (not_or.1 neither).1 (not_or.1 neither).2)
    · intro target startingAt
      by_contra neither
      exact never (.before startingAt (not_or.1 neither).1 (not_or.1 neither).2)

/-! ## What comes out -/

theorem skipped_eq_error_iff {error : Error} :
    selection.skipped graph = .error error ↔
      ∃ name, error = .taskNotFound name ∧ selection.FirstUnknown graph name := by
  simp only [FirstUnknown, ← Graph.contains_iff]
  constructor
  · intro failed
    unfold skipped at failed
    split at failed
    next name found =>
      cases failed
      obtain ⟨unknown, earlier, later, mentions, known⟩ := List.find?_eq_some_iff_append.1 found
      exact ⟨name, rfl, by simpa using unknown, earlier, later, mentions, by simpa using known⟩
    next => cases failed
  · rintro ⟨name, rfl, unknown, earlier, later, mentions, known⟩
    have found : selection.mentioned.find? (fun name => !graph.contains name) = some name :=
      List.find?_eq_some_iff_append.2
        ⟨by simpa using unknown, earlier, later, mentions, by simpa using known⟩
    rw [skipped, found]

theorem skipped_of_known (known : ∀ name ∈ selection.mentioned, name ∈ graph.names) :
    selection.skipped graph =
      .ok (.ofList (graph.names.filter fun name => !selection.keeps graph name)) := by
  have found : selection.mentioned.find? (fun name => !graph.contains name) = none := by
    apply List.find?_eq_none.2
    intro name mentioned
    simpa using Graph.contains_iff.2 (known name mentioned)
  rw [skipped, found]

theorem known_of_skipped {left : NameSet} (resolved : selection.skipped graph = .ok left) :
    ∀ name ∈ selection.mentioned, name ∈ graph.names := by
  unfold skipped at resolved
  split at resolved
  next => cases resolved
  next found =>
    intro name mentioned
    exact Graph.contains_iff.1 (by simpa using List.find?_eq_none.1 found name mentioned)

theorem mem_of_skipped {left : NameSet} (sound : graph.Sound)
    (resolved : selection.skipped graph = .ok left) :
    name ∈ left ↔ name ∈ graph.names ∧ selection.LeavesOut (Depends graph.tasks) name := by
  rw [skipped_of_known (known_of_skipped resolved)] at resolved
  cases resolved
  rw [NameSet.mem_ofList, List.mem_filter, leavesOut_iff_not_keeps sound, Bool.not_eq_true',
    Bool.not_eq_true]

theorem keeps_skip (front back : List String) (added : String) :
    { selection with skip := front ++ added :: back }.keeps graph name =
      ({ selection with skip := front ++ back }.keeps graph name && name != added) := by
  rw [Bool.eq_iff_iff]
  simp only [keeps, Bool.and_eq_true, Bool.not_eq_true', List.contains_eq_mem,
    decide_eq_false_iff_not, List.mem_append, List.mem_cons, bne_iff_ne]
  tauto

/-- One more name to be skipped is left out as well, and a name that is no task is found out as
before. -/
theorem skipped_skip {front back : List String} {added : String} (task : added ∈ graph.names) :
    { selection with skip := front ++ added :: back }.skipped graph =
      ({ selection with skip := front ++ back }.skipped graph).map fun left : NameSet =>
        left.insert added := by
  have contained : graph.contains added := Graph.contains_iff.2 task
  have checked :
      ({ selection with skip := front ++ added :: back } : Selection).mentioned.find?
          (fun name => !graph.contains name) =
        ({ selection with skip := front ++ back } : Selection).mentioned.find?
          (fun name => !graph.contains name) := by
    simp [mentioned, List.find?_append, contained]
  rw [skipped, skipped, checked]
  split
  next => rfl
  next =>
    apply congrArg Except.ok
    apply NameSet.ext_mem
    intro name
    rw [NameSet.mem_insert, NameSet.mem_ofList, NameSet.mem_ofList, List.mem_filter,
      List.mem_filter, keeps_skip]
    by_cases same : name = added
    · simp [same, task]
    · simp [same]

/-- A selection fails just if it mentions a name that is no task, and tells the first.  Otherwise
it leaves out what remains when all tasks are narrowed, and these are the tasks that are named to be
skipped, that are not reached from the target to run to, and from which the target to run from is
not reached.  To skip one more task, wherever it is put among the others, leaves out that task and
changes nothing else. -/
theorem resolves_by_dependencies (accepted : Graph.ofTasks tasks = .ok graph)
    (selection : Selection) :
    (∀ error, selection.skipped graph = .error error ↔
      ∃ name, error = .taskNotFound name ∧ selection.FirstUnknown graph name) ∧
    ((∀ name ∈ selection.mentioned, name ∈ graph.names) →
      selection.skipped graph = .ok ((NameSet.ofList graph.names).diff (selection.kept graph))) ∧
    (∀ left, selection.skipped graph = .ok left →
      ∀ name, name ∈ left ↔ name ∈ graph.names ∧ selection.LeavesOut (Depends tasks) name) ∧
    ∀ added ∈ graph.names, ∀ front back, selection.skip = front ++ back →
      { selection with skip := front ++ added :: back }.skipped graph =
        (selection.skipped graph).map fun left => left.insert added := by
  have sound := Graph.sound_of_ofTasks accepted
  have order := Graph.inNameOrder_of_ofTasks accepted
  refine ⟨fun error => skipped_eq_error_iff, ?_, ?_, ?_⟩
  · intro known
    rw [skipped_of_known known]
    apply congrArg Except.ok
    apply NameSet.ext_mem
    intro name
    rw [NameSet.mem_ofList, List.mem_filter, NameSet.mem_diff, NameSet.mem_ofList, mem_kept]
    simp +contextual
  · intro left resolved name
    rw [mem_of_skipped sound resolved, Graph.depends_iff_of_perm order.perm]
  · intro added task front back split
    have same : selection = { selection with skip := front ++ back } := by rw [← split]
    rw [skipped_skip task, ← same]

/-- Of the four tasks, one is both run from and skipped. -/
def contrary : Selection := ⟨["left"], some "join", some "left"⟩

theorem contrary_resolves :
    Graph.ofTasks Graph.diamondTasks = .ok Graph.diamond ∧
      contrary.skipped Graph.diamond = .ok (.ofList ["base", "left", "right"]) ∧
      contrary.LeavesOut (Depends Graph.diamondTasks) "right" ∧
      ¬contrary.LeavesOut (Depends Graph.diamondTasks) "join" ∧
      { contrary with skip := ["left", "join"] }.skipped Graph.diamond =
        (contrary.skipped Graph.diamond).map (fun left => left.insert "join") ∧
      { contrary with skip := ["roof", "cellar"] }.skipped Graph.diamond =
        .error (.taskNotFound "roof") := by
  have accepted : Graph.ofTasks Graph.diamondTasks = .ok Graph.diamond := by cbv
  have resolved : contrary.skipped Graph.diamond = .ok (.ofList ["base", "left", "right"]) := by cbv
  obtain ⟨_, _, members, more⟩ := resolves_by_dependencies accepted contrary
  obtain ⟨fails, _⟩ :=
    resolves_by_dependencies accepted { contrary with skip := ["roof", "cellar"] }
  refine ⟨accepted, resolved, ?_, ?_, more "join" (by decide) ["left"] [] rfl, ?_⟩
  · exact ((members _ resolved "right").1 (NameSet.mem_ofList.2 (by decide))).2
  · intro leaves
    have left := (members _ resolved "join").2 ⟨by decide, leaves⟩
    exact absurd (NameSet.mem_ofList.1 left) (by decide)
  · refine (fails _).2 ⟨"roof", rfl, by decide, [], ["cellar", "join", "left"], rfl, ?_⟩
    intro other earlier
    cases earlier

end Selection

end JobGraph
