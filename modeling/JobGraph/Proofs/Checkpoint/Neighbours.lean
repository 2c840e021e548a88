import JobGraph.Job.Basic
import JobGraph.Proofs.Checkpoint.AtomicWrites

/-!
# Checkpoints beside each other

Whatever a keeper does to a tree of files, it makes directories on the way to its own and changes
the entries of its two names there, that of the checkpoint and that of the temporary file
(`FileKeeper.Change`).  So a checkpoint of another name in the directory stays as it is
(`other_checkpoints_are_kept`), unless the name is the one of the temporary file: such a checkpoint
is lost (`checkpoint_of_temporary_name_is_lost`).
-/

namespace JobGraph

open FileTree

/-! ## Names of jobs -/

namespace Settings

variable {name : String}

theorem isFileName_iff :
    isFileName name = true ↔
      Text.isAllBlank name = false ∧ '/' ∉ name.toList ∧ '\\' ∉ name.toList := by
  simp only [isFileName, Bool.and_eq_true, Bool.not_eq_true', Bool.eq_false_iff, List.any_eq_true,
    Bool.or_eq_true, decide_eq_true_eq, ne_eq]
  grind

theorem ne_empty_of_isFileName (accepted : isFileName name = true) : name ≠ "" := by
  rintro rfl
  cases accepted

end Settings

namespace FileTree

variable {tree : FileTree} {place goal path : List String} {name : String}

/-- Dots below a directory lead to a directory. -/
theorem Closed.stands_dots (closed : tree.Closed) (stands : tree.Stands path place)
    (dots : name = "." ∨ name = "..") : ∃ goal, tree.Stands (path ++ [name]) goal := by
  have noNull : ∀ part ∈ [name], '\x00' ∉ part.toList := by
    rcases dots with rfl | rfl <;> decide
  have located := stands.locate_append noNull
  rw [locateFrom, stands.lookup] at located
  rcases dots with rfl | rfl
  · exact ⟨place, located, stands.lookup⟩
  · exact ⟨place.dropLast, located, closed stands.lookup⟩

theorem Stands.read (stands : tree.Stands path place) :
    tree.read path = .error .isADirectory := by
  simp only [FileTree.read, stands.located, bind, Except.bind, stands.lookup]
  rfl

theorem read_of_null (null : '\x00' ∈ name.toList) :
    tree.read (path ++ [name]) = .error .invalidInput := by
  have nulls : ((path ++ [name]).any fun part => part.toList.contains '\x00') = true := by
    simp [null]
  rw [FileTree.read, locate, if_pos nulls]
  rfl

/-- Whatever is no directory at the end of a path whose last part can be the name of a job is an
entry of a directory under that name. -/
theorem Closed.exists_stands (closed : tree.Closed) (accepted : Settings.isFileName name = true)
    (located : tree.locate (path ++ [name]) = .ok goal)
    (entry : tree.lookup goal ≠ some .directory) :
    ∃ place, tree.Stands path place ∧ goal = place ++ [name] ∧ IsName name := by
  obtain ⟨-, noSlash, -⟩ := Settings.isFileName_iff.1 accepted
  obtain ⟨place, stands, -⟩ := exists_stands_of_append located
  have noDots : ¬ (name = "." ∨ name = "..") := by
    intro dots
    obtain ⟨other, directory⟩ := closed.stands_dots stands dots
    cases located.symm.trans directory.located
    exact entry directory.lookup
  obtain ⟨notDot, notDots⟩ := not_or.1 noDots
  have noNull : '\x00' ∉ name.toList :=
    noNull_of_locate located name (List.mem_append_right path (List.mem_singleton_self name))
  exact exists_stands_of_locate
    ⟨Settings.ne_empty_of_isFileName accepted, notDot, notDots, noSlash, noNull⟩ located

end FileTree

namespace FileKeeper

variable {keeper : FileKeeper} {tree next left : FileTree} {path : List String}
  {bytes : List UInt8}

theorem path_of_isFileName (accepted : Settings.isFileName keeper.name = true) :
    keeper.path = keeper.directory ++ [keeper.name] := by
  obtain ⟨-, noSlash, -⟩ := Settings.isFileName_iff.1 accepted
  exact path_of_noSlash (Settings.ne_empty_of_isFileName accepted) noSlash

theorem temporaryPath_of_isFileName (accepted : Settings.isFileName keeper.name = true) :
    keeper.temporaryPath = keeper.directory ++ [keeper.temporaryName] := by
  obtain ⟨-, noSlash, -⟩ := Settings.isFileName_iff.1 accepted
  exact temporaryPath_of_noSlash noSlash

/-- The name of a temporary file can be the name of a job. -/
theorem isFileName_temporaryName (accepted : Settings.isFileName keeper.name = true) :
    Settings.isFileName keeper.temporaryName = true := by
  rw [Settings.isFileName_iff] at accepted ⊢
  obtain ⟨-, noSlash, noBackslash⟩ := accepted
  refine ⟨?_, not_mem_temporaryName noSlash (by decide), not_mem_temporaryName noBackslash
    (by decide)⟩
  rw [Text.isAllBlank, temporaryName, String.toList_append, List.all_append,
    Bool.and_eq_false_iff]
  exact .inr rfl

/-! ## What a keeper does to a tree -/

/-- What a keeper does to a tree, one entry at a time. -/
inductive Change (keeper : FileKeeper) : FileTree → FileTree → Prop
  | make {tree made : FileTree} {path : List String} :
      path <+: solid keeper.directory → tree.makeDirectory path = .ok made → Change keeper tree made
  | put {tree : FileTree} {inside : List String} {name : String} (bytes : List UInt8) :
      tree.Stands keeper.directory inside → name ∈ [keeper.name, keeper.temporaryName] →
      tree.lookup (inside ++ [name]) ≠ some .directory →
      Change keeper tree (tree.put (inside ++ [name]) (.file bytes))
  | drop {tree : FileTree} {inside : List String} {name : String} {bytes : List UInt8} :
      tree.Stands keeper.directory inside → name ∈ [keeper.name, keeper.temporaryName] →
      tree.lookup (inside ++ [name]) = some (.file bytes) →
      Change keeper tree (tree.drop (inside ++ [name]))

/-- Any number of changes, one after the other. -/
def Changes (keeper : FileKeeper) : FileTree → FileTree → Prop :=
  Relation.ReflTransGen keeper.Change

theorem name_mem (keeper : FileKeeper) : keeper.name ∈ [keeper.name, keeper.temporaryName] :=
  List.mem_cons_self

theorem temporaryName_mem (keeper : FileKeeper) :
    keeper.temporaryName ∈ [keeper.name, keeper.temporaryName] :=
  List.mem_cons_of_mem _ (List.mem_singleton_self _)

theorem Change.keepsDirectories (change : keeper.Change tree next) :
    KeepsDirectories tree next := by
  cases change with
  | make onWay ok =>
    obtain ⟨place, -, missing, rfl⟩ := makeDirectory_cases ok
    exact keepsDirectories_put (by simp [missing]) .directory
  | put bytes _ _ free => exact keepsDirectories_put free (.file bytes)
  | drop _ _ file => exact keepsDirectories_drop file

theorem Change.closed (change : keeper.Change tree next) (closed : tree.Closed) : next.Closed := by
  cases change with
  | make onWay ok => exact closed.makeDirectory ok
  | put bytes stands _ free =>
    apply closed.put _ free
    rw [List.dropLast_concat]
    exact stands.lookup
  | drop _ _ file => exact closed.drop file

theorem Changes.closed (changes : keeper.Changes tree next) (closed : tree.Closed) :
    next.Closed := by
  induction changes with
  | refl => exact closed
  | tail _ change inductionHypothesis => exact change.closed inductionHypothesis

/-! Each operation of a keeper makes changes. -/

theorem changes_makeDirectories (onWay : path <+: solid keeper.directory) :
    keeper.Changes tree (tree.makeDirectories path).1 :=
  makeDirectoriesWithin_induct (· <+: solid keeper.directory)
    (fun _ => isPrefix_parent fun _ => not_blank_of_mem_solid)
    (fun before onWay ok => before.tail (.make onWay ok)) _ .refl onWay

/-- Whatever is put at the path of the temporary file in place of no directory is a change. -/
theorem change_put {goal : List String} (closed : tree.Closed)
    (accepted : Settings.isFileName keeper.name = true)
    (located : tree.locate keeper.temporaryPath = .ok goal)
    (free : tree.lookup goal ≠ some .directory) (bytes : List UInt8) :
    keeper.Change tree (tree.put goal (.file bytes)) := by
  rw [temporaryPath_of_isFileName accepted] at located
  obtain ⟨inside, stands, rfl, -⟩ :=
    closed.exists_stands (isFileName_temporaryName accepted) located free
  exact .put bytes stands keeper.temporaryName_mem free

theorem changes_truncate (closed : tree.Closed) (accepted : Settings.isFileName keeper.name = true)
    (ok : tree.truncate keeper.temporaryPath = .ok next) : keeper.Changes tree next := by
  obtain ⟨goal, located, free, rfl⟩ := truncate_cases ok
  exact .single (change_put closed accepted located free [])

theorem changes_append (closed : tree.Closed) (accepted : Settings.isFileName keeper.name = true)
    (ok : tree.append keeper.temporaryPath bytes = .ok next) : keeper.Changes tree next := by
  obtain ⟨goal, content, located, file, rfl⟩ := append_cases ok
  exact .single (change_put closed accepted located (by simp [file]) (content ++ bytes))

theorem changes_rename (closed : tree.Closed) (accepted : Settings.isFileName keeper.name = true)
    (ok : tree.rename keeper.temporaryPath keeper.path = .ok next) : keeper.Changes tree next := by
  obtain ⟨source, goal, content, located, file, aimed, free, rfl⟩ := rename_cases ok
  rw [temporaryPath_of_isFileName accepted] at located
  rw [path_of_isFileName accepted] at aimed
  obtain ⟨inside, stands, rfl, -⟩ :=
    closed.exists_stands (isFileName_temporaryName accepted) located (by simp [file])
  obtain ⟨_, there, rfl, -⟩ := closed.exists_stands accepted aimed free
  cases stands.located.symm.trans there.located
  have still := stands.mono (keepsDirectories_drop file)
  exact .tail (.single (.drop stands keeper.temporaryName_mem file))
    (.put content still keeper.name_mem (lookup_drop_ne_directory free))

theorem changes_removeFile {name : String} (closed : tree.Closed)
    (accepted : Settings.isFileName name = true)
    (own : name ∈ [keeper.name, keeper.temporaryName])
    (ok : tree.removeFile (keeper.directory ++ [name]) = .ok next) : keeper.Changes tree next := by
  obtain ⟨goal, content, located, file, rfl⟩ := removeFile_cases ok
  obtain ⟨inside, stands, rfl, -⟩ := closed.exists_stands accepted located (by simp [file])
  exact .single (.drop stands own file)

/-- The steps that a keeper takes in a write, whatever its bytes and wherever it stops. -/
def Owns (keeper : FileKeeper) : FileStep → Prop
  | .makeDirectories path => path <+: solid keeper.directory
  | .truncate path => path = keeper.temporaryPath
  | .append path _ => path = keeper.temporaryPath
  | .rename source target => source = keeper.temporaryPath ∧ target = keeper.path

theorem owns_writeSteps (accepted : Settings.isFileName keeper.name = true) :
    ∀ step ∈ keeper.writeSteps bytes, keeper.Owns step := by
  have onWay : parent keeper.path <+: solid keeper.directory := by
    rw [path_of_isFileName accepted]
    exact isPrefix_parents keeper.directory keeper.name 0
  simp [writeSteps, Owns, onWay]

theorem owns_of_stops {steps done : List FileStep} (stops : FileStep.Stops steps done)
    (all : ∀ step ∈ steps, keeper.Owns step) : ∀ step ∈ done, keeper.Owns step := by
  induction stops with
  | now => exact fun _ mem => absurd mem List.not_mem_nil
  | amongDirectories path levels rest =>
    intro step mem
    rw [List.mem_singleton.1 mem]
    have onWay : path <+: solid keeper.directory := all _ List.mem_cons_self
    exact Function.Iterate.rec (· <+: solid keeper.directory) onWay
      (fun _ => isPrefix_parent fun _ => not_blank_of_mem_solid) levels
  | amongBytes path bytes count rest =>
    intro step mem
    rw [List.mem_singleton.1 mem]
    exact all (.append path bytes) List.mem_cons_self
  | later step _ inductionHypothesis =>
    obtain ⟨first, others⟩ := List.forall_mem_cons.1 all
    exact List.forall_mem_cons.2 ⟨first, inductionHypothesis others⟩

theorem changes_run {step : FileStep} (closed : tree.Closed)
    (accepted : Settings.isFileName keeper.name = true) (own : keeper.Owns step) :
    keeper.Changes tree (step.run tree).1 := by
  cases step with
  | makeDirectories path => exact changes_makeDirectories own
  | truncate path =>
    cases own
    exact FileStep.after_fst .refl fun _ ok => changes_truncate closed accepted ok
  | append path bytes =>
    cases own
    exact FileStep.after_fst .refl fun _ ok => changes_append closed accepted ok
  | rename source target =>
    obtain ⟨rfl, rfl⟩ := own
    exact FileStep.after_fst .refl fun _ ok => changes_rename closed accepted ok

theorem changes_runAll {steps : List FileStep} (closed : tree.Closed)
    (accepted : Settings.isFileName keeper.name = true) (all : ∀ step ∈ steps, keeper.Owns step) :
    keeper.Changes tree (FileStep.runAll tree steps).1 := by
  induction steps generalizing tree with
  | nil => exact .refl
  | cons step rest inductionHypothesis =>
    obtain ⟨first, others⟩ := List.forall_mem_cons.1 all
    have next := changes_run closed accepted first
    rw [FileStep.runAll]
    split
    next made eq =>
      rw [eq] at next
      exact next.trans (inductionHypothesis (next.closed closed) others)
    next left problem eq => rwa [eq] at next

theorem changes_removeAll (names : List String) (closed : tree.Closed)
    (all : ∀ name ∈ names,
      Settings.isFileName name = true ∧ name ∈ [keeper.name, keeper.temporaryName]) :
    keeper.Changes tree (removeAll tree (names.map fun name => keeper.directory ++ [name])).1 := by
  induction names generalizing tree with
  | nil => exact .refl
  | cons name rest inductionHypothesis =>
    obtain ⟨⟨accepted, own⟩, others⟩ := List.forall_mem_cons.1 all
    rw [List.map_cons, removeAll]
    split
    next next ok =>
      have removed := changes_removeFile closed accepted own ok
      exact removed.trans (inductionHypothesis (removed.closed closed) others)
    next => exact inductionHypothesis closed others
    next => exact .refl

theorem changes_clear (closed : tree.Closed) (accepted : Settings.isFileName keeper.name = true) :
    keeper.Changes tree (keeper.clear tree).1 := by
  rw [clear, path_of_isFileName accepted, temporaryPath_of_isFileName accepted]
  apply changes_removeAll [keeper.name, keeper.temporaryName] closed
  simp [accepted, isFileName_temporaryName accepted]

/-- What a keeper can make of a tree by writing, by writing that stops somewhere, and by
clearing. -/
inductive Reaches (keeper : FileKeeper) (tree : FileTree) : FileTree → Prop
  | start : Reaches keeper tree tree
  | write {next : FileTree} (writtenAt : Timestamp) (snapshot : Snapshot) :
      Reaches keeper tree next → Reaches keeper tree (keeper.write next writtenAt snapshot).1
  | stopped {next : FileTree} {bytes : List UInt8} {done : List FileStep} :
      FileStep.Stops (keeper.writeSteps bytes) done → Reaches keeper tree next →
      Reaches keeper tree (FileStep.runAll next done).1
  | clear {next : FileTree} :
      Reaches keeper tree next → Reaches keeper tree (keeper.clear next).1

theorem Reaches.changes (reaches : keeper.Reaches tree left) (closed : tree.Closed)
    (accepted : Settings.isFileName keeper.name = true) : keeper.Changes tree left := by
  induction reaches with
  | start => exact .refl
  | write writtenAt snapshot _ inductionHypothesis =>
    rw [keeper.write_eq _ writtenAt snapshot rfl]
    exact inductionHypothesis.trans
      (changes_runAll (inductionHypothesis.closed closed) accepted (owns_writeSteps accepted))
  | stopped stops _ inductionHypothesis =>
    exact inductionHypothesis.trans (changes_runAll (inductionHypothesis.closed closed) accepted
      (owns_of_stops stops (owns_writeSteps accepted)))
  | clear _ inductionHypothesis =>
    exact inductionHypothesis.trans (changes_clear (inductionHypothesis.closed closed) accepted)

/-! ## What stays as it is -/

/-- Whether two trees differ in nothing but directories that were made on the way to that of a
keeper and the entries of its two names there. -/
structure Confined (keeper : FileKeeper) (tree other : FileTree) : Prop where
  keeps : KeepsDirectories tree other
  places : ∀ place, other.lookup place = tree.lookup place ∨
    (tree.lookup place = none ∧
      ∃ path, path <+: solid keeper.directory ∧ other.Stands path place) ∨
    ∃ inside, other.Stands keeper.directory inside ∧
      ∃ name ∈ [keeper.name, keeper.temporaryName], place = inside ++ [name]

namespace Confined

theorem refl (keeper : FileKeeper) (tree : FileTree) : keeper.Confined tree tree :=
  ⟨fun _ stands => stands, fun _ => .inl rfl⟩

theorem trans (first : keeper.Confined tree next) (second : keeper.Confined next left) :
    keeper.Confined tree left := by
  refine ⟨fun place stands => second.keeps place (first.keeps place stands), fun place => ?_⟩
  rcases first.places place with same | ⟨missing, path, onWay, stands⟩ | ⟨inside, stands, own⟩
  · rw [← same]
    exact second.places place
  · exact .inr (.inl ⟨missing, path, onWay, stands.mono second.keeps⟩)
  · exact .inr (.inr ⟨inside, stands.mono second.keeps, own⟩)

end Confined

theorem Change.confined (change : keeper.Change tree next) : keeper.Confined tree next := by
  refine ⟨change.keepsDirectories, fun place => ?_⟩
  have keeps := change.keepsDirectories
  cases change with
  | @make _ path onWay ok =>
    obtain ⟨goal, missing, rfl, made⟩ := stands_of_makeDirectory ok
    by_cases same : place = goal
    · subst same
      exact .inr (.inl ⟨missing, path, onWay, made⟩)
    · exact .inl (lookup_put_of_ne same .directory)
  | @put inside name bytes stands own free =>
    by_cases same : place = inside ++ [name]
    · exact .inr (.inr ⟨inside, stands.mono keeps, name, own, same⟩)
    · exact .inl (lookup_put_of_ne same _)
  | @drop inside name bytes stands own file =>
    by_cases same : place = inside ++ [name]
    · exact .inr (.inr ⟨inside, stands.mono keeps, name, own, same⟩)
    · exact .inl (lookup_drop_of_ne same)

theorem Changes.confined (changes : keeper.Changes tree left) : keeper.Confined tree left := by
  induction changes with
  | refl => exact .refl keeper tree
  | tail _ change inductionHypothesis => exact inductionHypothesis.trans change.confined

variable {base names : List String} {place : List String} {name : String}

/-- A change does not show at another name, if the directory of the keeper stands or can be made by
names below one that stands. -/
theorem Change.read_eq (change : keeper.Change tree next) (closed : tree.Closed)
    (directory : keeper.directory = base ++ names) (stands : tree.Stands base place)
    (all : ∀ part ∈ names, IsName part ∨ IsBlank part) (plain : IsPlain name)
    (short : names = [] ∨ name.utf8ByteSize ≤ maximumName)
    (other : name ∉ [keeper.name, keeper.temporaryName]) :
    next.read (keeper.directory ++ [name]) = tree.read (keeper.directory ++ [name]) := by
  have keeps := change.keepsDirectories
  have ne {own : String} (mem : own ∈ [keeper.name, keeper.temporaryName]) (inside : List String) :
      inside ++ [name] ≠ inside ++ [own] := by
    intro eq
    rw [List.append_cancel_left_eq, List.singleton_inj] at eq
    exact other (eq ▸ mem)
  cases change with
  | make onWay ok =>
    rw [directory, solid_append] at onWay
    rw [directory]
    exact stands.read_of_grows closed all plain short
      (stands.withoutBlanks.grows_makeDirectory (fun _ => isName_of_mem_solid all) onWay ok)
  | @put inside _ bytes there own free =>
    exact there.read_congr (there.mono keeps) plain (lookup_put_of_ne (ne own inside) _)
  | @drop inside _ bytes there own file =>
    exact there.read_congr (there.mono keeps) plain (lookup_drop_of_ne (ne own inside))

theorem Changes.read_eq (changes : keeper.Changes tree left) (closed : tree.Closed)
    (directory : keeper.directory = base ++ names) (stands : tree.Stands base place)
    (all : ∀ part ∈ names, IsName part ∨ IsBlank part) (plain : IsPlain name)
    (short : names = [] ∨ name.utf8ByteSize ≤ maximumName)
    (other : name ∉ [keeper.name, keeper.temporaryName]) :
    left.read (keeper.directory ++ [name]) = tree.read (keeper.directory ++ [name]) := by
  induction changes with
  | refl => rfl
  | tail before change inductionHypothesis =>
    have still := stands.mono (Changes.confined before).keeps
    rw [change.read_eq (Changes.closed before closed) directory still all plain short other,
      inductionHypothesis]

end FileKeeper

/-- A keeper whose name can be that of a job writes, stops in writes and clears, in a tree whose
entries stand in directories.  This makes directories on the way to its own and changes the entries
of its two names there, and nothing else.  A checkpoint of any other job in the directory reads as
before, if its name is not that of the temporary file.  Where a directory has to be made for it by
names below one that stands, its name must be neither dots nor too long. -/
theorem other_checkpoints_are_kept {tree left : FileTree} (closed : tree.Closed)
    {keeper : FileKeeper} (accepted : Settings.isFileName keeper.name = true)
    (reaches : keeper.Reaches tree left) :
    keeper.Confined tree left ∧
    ∀ (other : FileKeeper) (base names : List String) (location : String),
      Settings.isFileName other.name = true → other.directory = keeper.directory →
      other.name ≠ keeper.name → other.name ≠ keeper.temporaryName →
      keeper.directory = base ++ names → tree.isDirectory base = true →
      (∀ part ∈ names, IsName part ∨ IsBlank part) →
      (names = [] ∨ other.name ≠ "." ∧ other.name ≠ ".." ∧
        other.name.utf8ByteSize ≤ maximumName) →
      other.read left location = other.read tree location := by
  have changes := reaches.changes closed accepted
  refine ⟨changes.confined, ?_⟩
  intro other base names location acceptedOther beside ne neTemporary directory stands all short
  obtain ⟨place, stands⟩ := isDirectory_iff.1 stands
  obtain ⟨-, noSlash, -⟩ := Settings.isFileName_iff.1 acceptedOther
  have path := FileKeeper.path_of_isFileName acceptedOther
  rw [beside] at path
  apply FileKeeper.read_eq_of_unread
  rw [path]
  -- What is read under a name with a null or of dots does not depend on the entries, so only a
  -- plain name is followed change by change.
  by_cases null : '\x00' ∈ other.name.toList
  · rw [read_of_null null, read_of_null null]
  by_cases dots : other.name = "." ∨ other.name = ".."
  · have bare : names = [] :=
      short.resolve_right fun ⟨notDot, notDots, _⟩ => dots.elim notDot notDots
    rw [bare, List.append_nil] at directory
    rw [directory]
    have still := stands.mono changes.confined.keeps
    obtain ⟨_, before⟩ := closed.stands_dots stands dots
    obtain ⟨_, after⟩ := (changes.closed closed).stands_dots still dots
    rw [before.read, after.read]
  · obtain ⟨notDot, notDots⟩ := not_or.1 dots
    have plain : IsPlain other.name :=
      ⟨Settings.ne_empty_of_isFileName acceptedOther, notDot, notDots, noSlash, null⟩
    have fits := short.imp_right fun ⟨_, _, fits⟩ => fits
    exact changes.read_eq closed directory stands all plain fits (by simp [ne, neTemporary])

/-- A keeper beside `FileKeeper.archived`. -/
def FileKeeper.nightly : FileKeeper := ⟨["jobs", "", "archive"], "nightly"⟩

/-- The checkpoint of one job is there before and after another one writes and clears its own. -/
theorem archived_checkpoint_is_kept :
    let moment : Timestamp := ⟨⟨2024, 2, 29⟩, 12, 0, 0, 0⟩
    let before := (FileKeeper.archived.write .interrupted moment .single).1
    let left := (FileKeeper.nightly.clear (FileKeeper.nightly.write before moment .single).1).1
    FileKeeper.archived.read before "job" = .ok .single ∧
      FileKeeper.archived.read left "job" = .ok .single ∧
      FileKeeper.nightly.Confined before left := by
  intro moment before left
  have wellFormed : FileTree.interrupted.Closed := FileStep.closed_runAll .empty _
  have written : FileKeeper.archived.Reaches .interrupted before := .write moment .single .start
  have closed : before.Closed := (written.changes wellFormed (by decide +kernel)).closed wellFormed
  have reaches : FileKeeper.nightly.Reaches before left := .clear (.write moment .single .start)
  have stands : before.isDirectory ["jobs", "", "archive"] = true := by decide +kernel
  have read : FileKeeper.archived.read before "job" = .ok .single := by
    have plain : IsPlain FileKeeper.archived.name :=
      ⟨by decide, by decide, by decide, by decide, by decide⟩
    have plainStore : Snapshot.single.store.Plain := fun entry listed => by cases listed
    have valid : moment.Valid :=
      ⟨⟨by decide, by decide, by decide⟩, by decide, by decide, by decide⟩
    have done : FileStep.runAll .interrupted (FileKeeper.archived.writeSteps
        (Text.encodeUtf8 (Checkpoint.encode moment .single))) = (before, none) := rfl
    rw [FileKeeper.read, FileKeeper.read_of_written plain done]
    change Checkpoint.decodeBytes _ = _
    rw [Checkpoint.decodeBytes_encodeUtf8, Checkpoint.decode_encode valid plainStore,
      if_pos (by decide)]
  obtain ⟨confined, same⟩ := other_checkpoints_are_kept closed (by decide +kernel) reaches
  have unread : FileKeeper.archived.read left "job" = FileKeeper.archived.read before "job" :=
    same .archived ["jobs", "", "archive"] [] "job" (by decide +kernel) rfl (by decide) (by decide)
      rfl stands (fun _ mem => absurd mem List.not_mem_nil) (.inl rfl)
  exact ⟨read, unread.trans read, confined⟩

/-- The last step of a write leaves nothing to read under the name of the temporary file. -/
theorem FileKeeper.read_temporary_of_rename {keeper : FileKeeper} {tree next : FileTree}
    (closed : tree.Closed) (accepted : Settings.isFileName keeper.name = true)
    (ok : tree.rename keeper.temporaryPath keeper.path = .ok next) :
    next.read keeper.temporaryPath = .error .notFound := by
  obtain ⟨source, goal, content, located, file, aimed, free, rfl⟩ := rename_cases ok
  rw [temporaryPath_of_isFileName accepted] at located ⊢
  rw [path_of_isFileName accepted] at aimed
  obtain ⟨inside, stands, rfl, named⟩ :=
    closed.exists_stands (isFileName_temporaryName accepted) located (by simp [file])
  obtain ⟨_, there, rfl, -⟩ := closed.exists_stands accepted aimed free
  cases stands.located.symm.trans there.located
  have still := (stands.mono (keepsDirectories_drop file)).mono
    (keepsDirectories_put (lookup_drop_ne_directory free) (.file content))
  rw [still.read_plain named.toIsPlain, if_neg (Nat.not_lt.2 named.short),
    lookup_put_of_ne (keeper.sibling_ne inside).symm, lookup_drop_self (List.concat_ne_nil _ _)]
  rfl

/-- A write that succeeds leaves no checkpoint to the job whose name is that of the temporary
file. -/
theorem checkpoint_of_temporary_name_is_lost {tree : FileTree} (closed : tree.Closed)
    {keeper other : FileKeeper} (accepted : Settings.isFileName keeper.name = true)
    (beside : other.directory = keeper.directory) (named : other.name = keeper.temporaryName)
    {writtenAt : Timestamp} {snapshot : Snapshot}
    (ok : (keeper.write tree writtenAt snapshot).2 = .ok ()) (location : String) :
    other.read (keeper.write tree writtenAt snapshot).1 location =
      .error (.noCheckpoint location) := by
  have path : other.path = keeper.temporaryPath := by
    have acceptedOther : Settings.isFileName other.name = true := by
      rw [named]
      exact FileKeeper.isFileName_temporaryName accepted
    rw [FileKeeper.path_of_isFileName acceptedOther,
      FileKeeper.temporaryPath_of_isFileName accepted, beside, named]
  cases eq : FileStep.runAll tree (keeper.writeSteps
      (Text.encodeUtf8 (Checkpoint.encode writtenAt snapshot))) with
  | mk last problem =>
    rw [keeper.write_eq tree writtenAt snapshot eq] at ok ⊢
    cases problem with
    | some problem => cases ok
    | none =>
      obtain ⟨made, directories, eq⟩ := FileStep.exists_of_runAll_ok eq
      obtain ⟨empty, truncated, eq⟩ := FileStep.exists_of_runAll_ok eq
      obtain ⟨full, appended, eq⟩ := FileStep.exists_of_runAll_ok eq
      obtain ⟨renamed, moved, eq⟩ := FileStep.exists_of_runAll_ok eq
      cases eq
      have closedMade := FileStep.closed_of_run closed directories
      have closedEmpty := closedMade.truncate (of_after truncated)
      have closedFull := closedEmpty.append (of_after appended)
      have gone := FileKeeper.read_temporary_of_rename closedFull accepted (of_after moved)
      rw [FileKeeper.read, path, gone]

end JobGraph
