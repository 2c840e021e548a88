import JobGraph.Proofs.Checkpoint.Neighbours
import JobGraph.Proofs.Graph.Acceptance
import JobGraph.Proofs.Number.Seconds

/-!
# What a definition of a job has to meet

A definition is accepted exactly if it has tasks, its name can be the name of a file, its times are
lengths of time within their bounds, each of its tasks can be tried, and the dependencies are names
of its tasks and lead nowhere back.  The checks come one after the other, so
`Definition.requirements` lists in one row all that is asked, each with the error that tells that it
is not met, and the error of a refused definition is that of the first one in the row.

Every check `Reports` on its own requirements, and checks that follow one another on theirs in turn.
-/

namespace JobGraph

open Relation (TransGen)

/-! ## Requirements in a row -/

/-- Something that has to be met, and the errors that tell that it is not. -/
structure Requirement where
  met : Prop
  tells : Error → Prop

namespace Requirement

/-- A requirement with one error. -/
def orElse (met : Prop) (error : Error) : Requirement := ⟨met, fun told => told = error⟩

/-- The error tells of the first requirement of a row that is not met. -/
def FirstUnmet (requirements : List Requirement) (error : Error) : Prop :=
  ∃ before unmet after, requirements = before ++ unmet :: after ∧
    (∀ requirement ∈ before, requirement.met) ∧ ¬unmet.met ∧ unmet.tells error

/-- What a check finds is the first requirement that is not met, and nothing if all are. -/
def Reports (requirements : List Requirement) : Option Error → Prop
  | none => ∀ requirement ∈ requirements, requirement.met
  | some error => FirstUnmet requirements error

end Requirement

/-- What a check finds. -/
def problem? {α : Type} : Except Error α → Option Error
  | .ok _ => none
  | .error error => some error

theorem problem?_ite {α : Type} (refused : Prop) [Decidable refused] (error : Error)
    (check : Except Error α) :
    problem? (if refused then .error error else check) =
      if refused then some error else problem? check :=
  apply_ite problem? refused (.error error) check

namespace Requirement

variable {α β : Type} {first second : List Requirement} {error : Error}

theorem FirstUnmet.append (unmet : FirstUnmet first error) (second : List Requirement) :
    FirstUnmet (first ++ second) error := by
  obtain ⟨before, requirement, after, rfl, met, refused, told⟩ := unmet
  exact ⟨before, requirement, after ++ second, by simp, met, refused, told⟩

theorem FirstUnmet.of_met (met : ∀ requirement ∈ first, requirement.met)
    (unmet : FirstUnmet second error) : FirstUnmet (first ++ second) error := by
  obtain ⟨before, requirement, after, rfl, metToo, refused, told⟩ := unmet
  refine ⟨first ++ before, requirement, after, by simp, ?_, refused, told⟩
  intro other listed
  exact (List.mem_append.1 listed).elim (met other) (metToo other)

theorem FirstUnmet.exists_unmet (unmet : FirstUnmet first error) :
    ∃ requirement ∈ first, ¬requirement.met := by
  obtain ⟨before, requirement, after, rfl, -, refused, -⟩ := unmet
  exact ⟨requirement, by simp, refused⟩

namespace Reports

theorem nil : Reports [] none := List.forall_mem_nil _

/-- A second check is made only if the first has found nothing. -/
theorem append {problem : Option Error} (firstly : Reports first problem) {other : Option Error}
    (then_ : problem = none → Reports second other) :
    Reports (first ++ second) (problem.or other) := by
  cases problem with
  | some error => exact FirstUnmet.append firstly second
  | none =>
    cases other with
    | some error => exact FirstUnmet.of_met firstly (then_ rfl)
    | none => exact List.forall_mem_append.2 ⟨firstly, then_ rfl⟩

theorem bind {check : Except Error α} {next : α → Except Error β}
    (firstly : Reports first (problem? check))
    (then_ : ∀ value, check = .ok value → Reports second (problem? (next value))) :
    Reports (first ++ second) (problem? (check >>= next)) := by
  cases check with
  | error error => exact FirstUnmet.append firstly second
  | ok value => exact firstly.append fun _ => then_ value rfl

theorem mapM {requirements : α → List Requirement} {check : α → Except Error β} {items : List α}
    (each : ∀ item ∈ items, Reports (requirements item) (problem? (check item))) :
    Reports (items.flatMap requirements) (problem? (items.mapM check)) := by
  induction items with
  | nil => exact nil
  | cons item rest inductionHypothesis =>
    obtain ⟨here, later⟩ := List.forall_mem_cons.1 each
    rw [List.mapM_cons, List.flatMap_cons]
    refine here.bind fun value _ => ?_
    rw [← List.append_nil (rest.flatMap requirements)]
    exact (inductionHypothesis later).bind fun _ _ => nil

theorem findSome? {requirements : α → List Requirement} {problem : α → Option Error}
    {items : List α} (each : ∀ item ∈ items, Reports (requirements item) (problem item)) :
    Reports (items.flatMap requirements) (items.findSome? problem) := by
  induction items with
  | nil => exact nil
  | cons item rest inductionHypothesis =>
    obtain ⟨here, later⟩ := List.forall_mem_cons.1 each
    have both := here.append fun _ => inductionHypothesis later
    rw [List.findSome?_cons, List.flatMap_cons]
    cases found : problem item <;> simpa [found] using both

/-- A check that starts with one condition. -/
theorem ite {refused : Prop} [Decidable refused] {met : Prop} (same : refused ↔ ¬met)
    {problem : Option Error} (then_ : met → Reports second problem) :
    Reports (orElse met error :: second) (if refused then some error else problem) := by
  by_cases holds : met
  · rw [if_neg fun refuse => same.1 refuse holds]
    have firstly : Reports [orElse met error] none := by simpa [Reports, orElse] using holds
    simpa using firstly.append fun _ => then_ holds
  · rw [if_pos (same.2 holds)]
    exact ⟨[], orElse met error, second, rfl, List.forall_mem_nil _, holds, rfl⟩

end Reports

end Requirement

open Requirement (orElse FirstUnmet Reports)

/-! ## What is asked of settings and tasks -/

/-- There is something to be seen in a text. -/
def Text.Visible (text : String) : Prop := ∃ c ∈ text.toList, Text.isBlank c = false

theorem Text.isAllBlank_iff {text : String} : Text.isAllBlank text = true ↔ ¬Text.Visible text := by
  simp [Text.isAllBlank, Text.Visible]

/-- A number of seconds within a bound that is a length of time. -/
structure Bound.Allows (bound : Bound) (seconds : Binary64) : Prop where
  finite : seconds.isFinite = true
  admitted : bound.Admits seconds.toRat
  fits : seconds.toRat < 2 ^ 64

/-- What is asked of a number of seconds: first the bound, then the length. -/
def Bound.requirements (bound : Bound) (bad long : JobProblem) (seconds : Binary64) :
    List Requirement :=
  [orElse (seconds.isFinite = true ∧ bound.Admits seconds.toRat) (.job bad),
    orElse (seconds.toRat < 2 ^ 64) (.job long)]

theorem Bound.requirements_met_iff {bound : Bound} {bad long : JobProblem} {seconds : Binary64} :
    (∀ requirement ∈ bound.requirements bad long seconds, requirement.met) ↔
      bound.Allows seconds := by
  simp only [Bound.requirements, orElse, List.forall_mem_cons, List.not_mem_nil, false_implies,
    implies_true, and_true]
  constructor
  · rintro ⟨⟨finite, admitted⟩, fits⟩
    exact ⟨finite, admitted, fits⟩
  · rintro ⟨finite, admitted, fits⟩
    exact ⟨⟨finite, admitted⟩, fits⟩

theorem Bound.nonneg {bound : Bound} {value : ℚ} (admits : bound.Admits value) : 0 ≤ value := by
  cases bound with
  | positive => exact le_of_lt admits
  | nonNegative => exact admits

namespace Settings

/-- What is asked of a time of the settings. -/
def timeRequirements (field : String) (bound : Bound) (value : Binary64) : List Requirement :=
  bound.requirements (.badSetting field bound value) (.longSetting field value) value

/-- The name can be the name of a file. -/
def NamesFile (name : String) : Prop := Text.Visible name ∧ '/' ∉ name.toList ∧ '\\' ∉ name.toList

def requirements (settings : Settings) : List Requirement :=
  [orElse (NamesFile settings.name) (.job (.badName settings.name))] ++
    (timeRequirements "checkpoint_interval_seconds" .positive settings.checkpointInterval ++
      (timeRequirements "tick_interval_seconds" .positive settings.tickInterval ++
        timeRequirements "abort_grace_seconds" .nonNegative settings.abortGrace))

theorem requirements_met_iff {settings : Settings} :
    (∀ requirement ∈ settings.requirements, requirement.met) ↔
      NamesFile settings.name ∧ Bound.positive.Allows settings.checkpointInterval ∧
        Bound.positive.Allows settings.tickInterval ∧
        Bound.nonNegative.Allows settings.abortGrace := by
  simp only [requirements, timeRequirements, List.forall_mem_append, List.forall_mem_singleton,
    Bound.requirements_met_iff, orElse]

theorem isFileName_iff_namesFile {name : String} :
    isFileName name = true ↔ NamesFile name := by
  rw [isFileName_iff, ← Bool.not_eq_true, Text.isAllBlank_iff, not_not, NamesFile]

theorem reports_checkSeconds (field : String) (bound : Bound) (value : Binary64) :
    Reports (timeRequirements field bound value) (problem? (checkSeconds field bound value)) := by
  unfold checkSeconds timeRequirements Bound.requirements
  simp only [problem?_ite]
  refine Reports.ite (by rw [Bool.not_eq_true', ← Bool.not_eq_true, isWithin_iff]) ?_
  rintro ⟨finite, admitted⟩
  have long := Duration.ofSeconds?_isSome_iff finite (Bound.nonneg admitted)
  refine Reports.ite ?_ fun _ => Reports.nil
  rw [← long, Option.isNone_iff_eq_none, Option.not_isSome_iff_eq_none]

theorem reports_check (settings : Settings) :
    Reports settings.requirements (problem? settings.check) := by
  have times : Reports _ (problem?
      (checkSeconds "checkpoint_interval_seconds" .positive settings.checkpointInterval >>= fun _ =>
        checkSeconds "tick_interval_seconds" .positive settings.tickInterval >>= fun _ =>
          checkSeconds "abort_grace_seconds" .nonNegative settings.abortGrace)) :=
    (reports_checkSeconds _ _ _).bind fun _ _ =>
      (reports_checkSeconds _ _ _).bind fun _ _ => reports_checkSeconds _ _ _
  have same : settings.check =
      if (!isFileName settings.name) = true then .error (.job (.badName settings.name))
      else
        checkSeconds "checkpoint_interval_seconds" .positive settings.checkpointInterval >>=
          fun _ => checkSeconds "tick_interval_seconds" .positive settings.tickInterval >>=
            fun _ => checkSeconds "abort_grace_seconds" .nonNegative settings.abortGrace := rfl
  rw [same, problem?_ite]
  refine Reports.ite ?_ fun _ => times
  rw [Bool.not_eq_true', ← Bool.not_eq_true, isFileName_iff_namesFile]

end Settings

namespace TaskEntry

def requirements (name : String) (entry : TaskEntry) : List Requirement :=
  orElse (Text.Visible entry.variant) (.job (.noVariant name)) ::
    orElse (1 ≤ entry.maxAttempts) (.job (.noAttempts name)) ::
      Bound.nonNegative.requirements (.badBackoff name entry.backoff)
        (.longBackoff name entry.backoff) entry.backoff

theorem requirements_met_iff {name : String} {entry : TaskEntry} :
    (∀ requirement ∈ requirements name entry, requirement.met) ↔
      Text.Visible entry.variant ∧ 1 ≤ entry.maxAttempts ∧
        Bound.nonNegative.Allows entry.backoff := by
  simp only [requirements, List.forall_mem_cons, Bound.requirements_met_iff, orElse]

/-- The task of an entry. -/
structure Makes (name : String) (entry : TaskEntry) (task : Task) : Prop where
  name : task.name = name
  variant : task.variant = entry.variant
  dependsOn : task.dependsOn = entry.dependsOn
  maxAttempts : task.maxAttempts = entry.maxAttempts
  parameters : task.parameters = entry.parameters
  backoff : Duration.ofSeconds? entry.backoff = some task.backoff

theorem reports_check (name : String) (entry : TaskEntry) :
    Reports (requirements name entry) (problem? (entry.check name)) := by
  unfold TaskEntry.check requirements Bound.requirements
  simp only [problem?_ite]
  refine Reports.ite Text.isAllBlank_iff fun _ => ?_
  refine Reports.ite (by omega) fun _ => ?_
  refine Reports.ite (by rw [Bool.not_eq_true', ← Bool.not_eq_true, Settings.isWithin_iff]) ?_
  rintro ⟨finite, admitted⟩
  have long := Duration.ofSeconds?_isSome_iff finite admitted
  have last : Reports
      [orElse (entry.backoff.toRat < 2 ^ 64) (.job (.longBackoff name entry.backoff))]
      (if (Duration.ofSeconds? entry.backoff).isNone = true then
        some (.job (.longBackoff name entry.backoff)) else none) :=
    Reports.ite (by rw [← long, Option.isNone_iff_eq_none, Option.not_isSome_iff_eq_none])
      fun _ => Reports.nil
  split
  next found => rwa [found] at last
  next backoff found => rwa [found] at last

/-- The tasks of entries, in the same order. -/
def MakesAll (entries : List (String × TaskEntry)) (tasks : List Task) : Prop :=
  List.Forall₂ (fun entry task => Makes entry.1 entry.2 task) entries tasks

theorem makes_of_check {name : String} {entry : TaskEntry} {task : Task}
    (ok : entry.check name = .ok task) : Makes name entry task := by
  unfold TaskEntry.check at ok
  split_ifs at ok
  split at ok
  · cases ok
  next backoff found =>
    cases ok
    exact ⟨rfl, rfl, rfl, rfl, rfl, found⟩

theorem makesAll_of_mapM {entries : List (String × TaskEntry)} {tasks : List Task}
    (ok : (entries.mapM fun entry => entry.2.check entry.1) = .ok tasks) :
    MakesAll entries tasks := by
  induction entries generalizing tasks with
  | nil =>
    cases ok
    exact List.Forall₂.nil
  | cons entry rest inductionHypothesis =>
    rw [List.mapM_cons] at ok
    obtain ⟨task, made, ok⟩ := exists_of_bind ok
    obtain ⟨others, madeOthers, ok⟩ := exists_of_bind ok
    cases ok
    exact List.Forall₂.cons (makes_of_check made) (inductionHypothesis madeOthers)

section MakesAll

variable {entries : List (String × TaskEntry)} {tasks : List Task}

theorem MakesAll.names_eq (makes : MakesAll entries tasks) :
    tasks.map Task.name = entries.map Prod.fst := by
  induction makes with
  | nil => rfl
  | cons same _ inductionHypothesis =>
    rw [List.map_cons, List.map_cons, same.name, inductionHypothesis]

theorem MakesAll.mem_depends_iff (makes : MakesAll entries tasks) {name dependency : String} :
    Graph.Depends tasks name dependency ↔
      ∃ entry ∈ entries, entry.1 = name ∧ dependency ∈ entry.2.dependsOn := by
  unfold Graph.Depends
  induction makes with
  | nil => simp
  | cons same _ inductionHypothesis =>
    simp only [List.exists_mem_cons_iff, inductionHypothesis, same.name, same.dependsOn]

end MakesAll

end TaskEntry

/-! ## What is asked of dependencies -/

open TaskEntry (MakesAll)

namespace Graph

/-- What is asked of the dependencies of one task: each is first not the task itself, and then the
name of some task. -/
def linkRequirements (names : List String) (name : String) (dependsOn : List String) :
    List Requirement :=
  dependsOn.flatMap fun dependency =>
    [orElse (dependency ≠ name) (.selfDependency name),
      orElse (dependency ∈ names) (.unknownDependency name dependency)]

theorem linkRequirements_met_iff {names dependsOn : List String} {name : String} :
    (∀ requirement ∈ linkRequirements names name dependsOn, requirement.met) ↔
      ∀ dependency ∈ dependsOn, dependency ≠ name ∧ dependency ∈ names := by
  simp only [linkRequirements, orElse, List.forall_mem_flatMap, List.forall_mem_cons,
    List.not_mem_nil, false_implies, implies_true, and_true]

/-- Nothing depends on itself through others; otherwise a name that does is told. -/
def acyclicRequirement (depends : String → String → Prop) : Requirement where
  met := ∀ name, ¬TransGen depends name name
  tells error := ∃ name, error = .cycle name ∧ TransGen depends name name

theorem links_eq {entries : List (String × TaskEntry)} {tasks : List Task}
    (makes : MakesAll entries tasks) (names : List String) :
    (tasks.flatMap fun task => linkRequirements names task.name task.dependsOn) =
      entries.flatMap fun entry => linkRequirements names entry.1 entry.2.dependsOn := by
  induction makes with
  | nil => rfl
  | cons same _ inductionHypothesis =>
    rw [List.flatMap_cons, List.flatMap_cons, same.name, same.dependsOn, inductionHypothesis]

theorem reports_dependencyProblem? (names : List String) (name dependency : String) :
    Reports [orElse (dependency ≠ name) (.selfDependency name),
      orElse (dependency ∈ names) (.unknownDependency name dependency)]
      (dependencyProblem? names name dependency) := by
  rw [dependencyProblem?, ← ite_not (dependency ∈ names)]
  exact Reports.ite not_not.symm fun _ => Reports.ite Iff.rfl fun _ => Reports.nil

theorem sortByName_of_ordered {tasks : List Task}
    (ordered : tasks.Pairwise fun first second => first.name < second.name) :
    sortByName tasks = tasks := by
  have distinct : (tasks.map Task.name).Nodup :=
    List.pairwise_map.2 (ordered.imp fun below => Std.ne_of_lt below)
  exact (inNameOrder_sortByName distinct).unique ⟨List.Perm.refl tasks, ordered⟩

theorem tasks_of_ofTasks {tasks : List Task} {graph : Graph}
    (ordered : tasks.Pairwise fun first second => first.name < second.name)
    (accepted : ofTasks tasks = .ok graph) : graph.tasks = tasks := by
  have verdict := verdict_ofTasks tasks
  rw [accepted] at verdict
  cases verdict with
  | accepted _ _ _ order => exact order.unique ⟨List.Perm.refl tasks, ordered⟩

theorem reports_ofTasks {tasks : List Task}
    (ordered : tasks.Pairwise fun first second => first.name < second.name) :
    Reports ((tasks.flatMap fun task =>
        linkRequirements (tasks.map Task.name) task.name task.dependsOn) ++
          [acyclicRequirement (Depends tasks)]) (problem? (ofTasks tasks)) := by
  have distinct : (tasks.map Task.name).Nodup :=
    List.pairwise_map.2 (ordered.imp fun below => Std.ne_of_lt below)
  have links : Reports (tasks.flatMap fun task =>
      linkRequirements (tasks.map Task.name) task.name task.dependsOn)
      (firstDependencyProblem? tasks) :=
    Reports.findSome? fun task _ => Reports.findSome? fun dependency _ =>
      reports_dependencyProblem? (tasks.map Task.name) task.name dependency
  have made := ofTasks_of_distinct distinct
  rw [sortByName_of_ordered ordered] at made
  cases problems : firstDependencyProblem? tasks with
  | some problem =>
    rw [problems] at made links
    rw [made]
    exact FirstUnmet.append links _
  | none =>
    have linked : Linked tasks := firstDependencyProblem?_eq_none_iff.1 problems
    have cycles := (cycleOf?_eq_none_iff distinct linked).symm
    rw [sortByName_of_ordered ordered] at cycles
    rw [problems] at made links
    rw [made]
    cases found : cycleOf? tasks with
    | none =>
      exact List.forall_mem_append.2 ⟨links, List.forall_mem_singleton.2 (cycles.2 found)⟩
    | some name =>
      have loop : TransGen (Depends tasks) name name :=
        cycle_of_sorted distinct linked (by rw [sortByName_of_ordered ordered, found])
      refine FirstUnmet.of_met links ⟨[], _, [], rfl, List.forall_mem_nil _, ?_, name, rfl, loop⟩
      intro acyclic
      exact acyclic name loop

end Graph

/-! ## What is asked of a definition -/

namespace Definition

/-- A task of the definition names a dependency. -/
def DependsOn (definition : Definition) (name dependency : String) : Prop :=
  ∃ entry, definition.tasks.find? name = some entry ∧ dependency ∈ entry.dependsOn

/-- What makes a definition one of a job. -/
structure Acceptable (definition : Definition) : Prop where
  someTask : definition.tasks.keys ≠ []
  named : Settings.NamesFile definition.settings.name
  checkpoint : Bound.positive.Allows definition.settings.checkpointInterval
  tick : Bound.positive.Allows definition.settings.tickInterval
  grace : Bound.nonNegative.Allows definition.settings.abortGrace
  variants : ∀ name entry, definition.tasks.find? name = some entry → Text.Visible entry.variant
  attempts : ∀ name entry, definition.tasks.find? name = some entry → 1 ≤ entry.maxAttempts
  backoffs : ∀ name entry, definition.tasks.find? name = some entry →
    Bound.nonNegative.Allows entry.backoff
  known : ∀ name dependency, definition.DependsOn name dependency →
    dependency ∈ definition.tasks.keys
  acyclic : ∀ name, ¬TransGen definition.DependsOn name name

/-- All that is asked of a definition, in the order in which it is looked at. -/
def requirements (definition : Definition) : List Requirement :=
  orElse (definition.tasks.keys ≠ []) (.job .noTasks) ::
    (definition.settings.requirements ++
      ((definition.tasks.entries.flatMap fun entry => TaskEntry.requirements entry.1 entry.2) ++
        ((definition.tasks.entries.flatMap fun entry =>
          Graph.linkRequirements definition.tasks.keys entry.1 entry.2.dependsOn) ++
            [Graph.acyclicRequirement definition.DependsOn])))

variable {definition : Definition} {tasks : List Task}

theorem forall_mem_entries_iff (definition : Definition) (property : String → TaskEntry → Prop) :
    (∀ entry ∈ definition.tasks.entries, property entry.1 entry.2) ↔
      ∀ name entry, definition.tasks.find? name = some entry → property name entry := by
  constructor
  · intro each name entry found
    exact each (name, entry) (Entries.mem_of_find? found)
  · intro each entry listed
    exact each entry.1 entry.2 (KeyMap.find?_of_mem listed)

theorem depends_eq {tasks : List Task} (makes : MakesAll definition.tasks.entries tasks) :
    Graph.Depends tasks = definition.DependsOn := by
  funext name dependency
  apply propext
  rw [makes.mem_depends_iff]
  constructor
  · rintro ⟨⟨_, entry⟩, listed, rfl, depends⟩
    exact ⟨entry, KeyMap.find?_of_mem listed, depends⟩
  · rintro ⟨entry, found, depends⟩
    exact ⟨(name, entry), Entries.mem_of_find? found, rfl, depends⟩

theorem ordered_of_makesAll {tasks : List Task} (makes : MakesAll definition.tasks.entries tasks) :
    tasks.Pairwise fun first second => first.name < second.name := by
  have keys := definition.tasks.keys_increasing
  rw [KeyMap.keys, ← makes.names_eq] at keys
  exact List.pairwise_map.1 keys

theorem reports_ofTasks {tasks : List Task} (makes : MakesAll definition.tasks.entries tasks) :
    Reports ((definition.tasks.entries.flatMap fun entry =>
        Graph.linkRequirements definition.tasks.keys entry.1 entry.2.dependsOn) ++
          [Graph.acyclicRequirement definition.DependsOn]) (problem? (Graph.ofTasks tasks)) := by
  have reports := Graph.reports_ofTasks (ordered_of_makesAll makes)
  rwa [makes.names_eq, Graph.links_eq makes, depends_eq makes] at reports

/-- The checks of a definition find the first of its requirements that is not met. -/
theorem reports_check (definition : Definition) :
    Reports definition.requirements (problem? definition.check) := by
  have rest : Reports _ (problem? (definition.settings.check >>= fun _ =>
      (definition.tasks.entries.mapM fun entry => entry.2.check entry.1) >>= fun tasks =>
        Graph.ofTasks tasks >>= fun graph => .ok (Job.mk definition.settings graph))) :=
    (Settings.reports_check definition.settings).bind fun _ _ =>
      (Reports.mapM fun entry _ => TaskEntry.reports_check entry.1 entry.2).bind fun tasks made =>
        (reports_ofTasks (TaskEntry.makesAll_of_mapM made)).bind fun _ _ => Reports.nil
  have same : definition.check =
      if definition.tasks.isEmpty = true then .error (.job .noTasks)
      else definition.settings.check >>= fun _ =>
        (definition.tasks.entries.mapM fun entry => entry.2.check entry.1) >>= fun tasks =>
          Graph.ofTasks tasks >>= fun graph => .ok (Job.mk definition.settings graph) := rfl
  rw [List.append_nil] at rest
  rw [same, problem?_ite]
  refine Reports.ite ?_ fun _ => rest
  rw [KeyMap.isEmpty, List.isEmpty_iff, KeyMap.keys, Ne, List.map_eq_nil_iff, not_not]

/-- That no task depends on itself need not be asked beside that there are no cycles. -/
theorem acceptable_iff :
    definition.Acceptable ↔ ∀ requirement ∈ definition.requirements, requirement.met := by
  have tasks := forall_mem_entries_iff definition (fun _ entry =>
    Text.Visible entry.variant ∧ 1 ≤ entry.maxAttempts ∧ Bound.nonNegative.Allows entry.backoff)
  have links := forall_mem_entries_iff definition (fun name entry =>
    ∀ dependency ∈ entry.dependsOn, dependency ≠ name ∧ dependency ∈ definition.tasks.keys)
  simp only [requirements, List.forall_mem_cons, List.forall_mem_append, List.forall_mem_flatMap,
    List.not_mem_nil, false_implies, implies_true, and_true, Settings.requirements_met_iff,
    TaskEntry.requirements_met_iff, Graph.linkRequirements_met_iff, Graph.acyclicRequirement,
    orElse, tasks, links]
  constructor
  · intro acceptable
    refine ⟨acceptable.someTask, ⟨acceptable.named, acceptable.checkpoint, acceptable.tick,
      acceptable.grace⟩, ?_, ?_, acceptable.acyclic⟩
    · intro name entry found
      exact ⟨acceptable.variants name entry found, acceptable.attempts name entry found,
        acceptable.backoffs name entry found⟩
    · intro name entry found dependency depends
      have edge : definition.DependsOn name dependency := ⟨entry, found, depends⟩
      refine ⟨?_, acceptable.known name dependency edge⟩
      rintro rfl
      exact acceptable.acyclic dependency (TransGen.single edge)
  · rintro ⟨someTask, ⟨named, checkpoint, tick, grace⟩, tasks, links, acyclic⟩
    refine ⟨someTask, named, checkpoint, tick, grace, ?_, ?_, ?_, ?_, acyclic⟩
    · exact fun name entry found => (tasks name entry found).1
    · exact fun name entry found => (tasks name entry found).2.1
    · exact fun name entry found => (tasks name entry found).2.2
    · rintro name dependency ⟨entry, found, depends⟩
      exact (links name entry found dependency depends).2

/-- A definition is accepted exactly if it is acceptable, and the job has its settings and one task
for each of its entries, in the same order.  The error of any other definition tells of the first
of its requirements that is not met. -/
theorem definitions_are_checked_in_order (definition : Definition) :
    ((∃ job, definition.check = .ok job) ↔ definition.Acceptable) ∧
    (∀ job, definition.check = .ok job → job.settings = definition.settings ∧
      MakesAll definition.tasks.entries job.graph.tasks) ∧
    (∀ error, definition.check = .error error → FirstUnmet definition.requirements error) := by
  have reports := reports_check definition
  refine ⟨⟨?_, ?_⟩, ?_, ?_⟩
  · rintro ⟨job, accepted⟩
    rw [accepted] at reports
    exact acceptable_iff.2 reports
  · intro acceptable
    cases found : definition.check with
    | ok job => exact ⟨job, rfl⟩
    | error error =>
      rw [found] at reports
      obtain ⟨requirement, listed, unmet⟩ := FirstUnmet.exists_unmet reports
      exact absurd (acceptable_iff.1 acceptable requirement listed) unmet
  · intro job accepted
    obtain ⟨-, -, settings, tasks, made, graph⟩ := Definition.check_eq_ok_iff.1 accepted
    have makes := TaskEntry.makesAll_of_mapM made
    have same := Graph.tasks_of_ofTasks (ordered_of_makesAll makes) graph
    exact ⟨settings, same ▸ makes⟩
  · intro error refused
    rw [refused] at reports
    exact reports

/-- A definition of two tasks that ask for all that is just allowed: no grace with the sign of a
negative number, and the least backoff. -/
def staged : Definition where
  settings := { Settings.default with name := " \t.", abortGrace := .ofMagnitude true 0 }
  tasks := .ofList
    [("late", ⟨"Shell", ["early", "early"], 3, .ofMagnitude false 1, .null⟩),
      ("early", TaskEntry.ofVariant "Sleep")]

/-- The tasks of that definition. -/
def stagedTasks : List Task :=
  [⟨"early", "Sleep", [], 1, .zero, .obj []⟩,
    ⟨"late", "Shell", ["early", "early"], 3, .zero, .null⟩]

/-- A definition with a tick that is no number, two tasks without attempts, and a task that depends
on itself. -/
def faulty : Definition where
  settings := { Settings.default with tickInterval := .nan }
  tasks := .ofList
    [("b", { TaskEntry.ofVariant "Sleep" with maxAttempts := 0, dependsOn := ["b"] }),
      ("a", { TaskEntry.ofVariant "Sleep" with maxAttempts := 0 })]

theorem staged_is_accepted_and_faulty_is_not :
    (staged.check = .ok ⟨staged.settings, ⟨stagedTasks⟩⟩ ∧ staged.Acceptable ∧
      MakesAll staged.tasks.entries stagedTasks) ∧
    (faulty.check = .error (.job (.badSetting "tick_interval_seconds" .positive .nan)) ∧
      ¬faulty.Acceptable ∧ FirstUnmet faulty.requirements
        (.job (.badSetting "tick_interval_seconds" .positive .nan))) := by
  have checked : staged.settings.check = .ok () := by decide +kernel
  have tasks : (staged.tasks.entries.mapM fun entry => entry.2.check entry.1) =
      .ok stagedTasks := by decide +kernel
  have graph : Graph.ofTasks stagedTasks = .ok ⟨stagedTasks⟩ := by cbv
  have accepted : staged.check = .ok ⟨staged.settings, ⟨stagedTasks⟩⟩ :=
    Definition.check_eq_ok_iff.2 ⟨rfl, checked, rfl, _, tasks, graph⟩
  have refused : faulty.check =
      .error (.job (.badSetting "tick_interval_seconds" .positive .nan)) := by rfl
  obtain ⟨acceptable, made, -⟩ := definitions_are_checked_in_order staged
  obtain ⟨fine, -, unmet⟩ := definitions_are_checked_in_order faulty
  refine ⟨⟨accepted, acceptable.1 ⟨_, accepted⟩, (made _ accepted).2⟩, refused, fun fit => ?_,
    unmet _ refused⟩
  obtain ⟨job, accepted⟩ := fine.2 fit
  cases refused.symm.trans accepted

end Definition

end JobGraph
