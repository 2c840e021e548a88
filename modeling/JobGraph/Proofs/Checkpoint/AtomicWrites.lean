import JobGraph.Proofs.Checkpoint.Codec
import JobGraph.Proofs.Checkpoint.FileReads

/-!
# Writing a checkpoint is atomic

Wherever the writing of a checkpoint stops, a reader sees the checkpoint there was or the new one
(`checkpoint_writes_are_atomic`).  Up to the last step only directories and the temporary file
change, and neither is what a reader looks at; the last step puts all bytes in place at once.
-/

namespace JobGraph

open Json (maximumDepth)

namespace FileStep

/-- Which steps are carried out when the carrying out of steps stops somewhere, because the program
ends or a step fails for a reason of its own.  Directories are made one after the other, the topmost
first, and bytes are written in order. -/
inductive Stops : List FileStep → List FileStep → Prop
  | now (steps : List FileStep) : Stops steps []
  | amongDirectories (path : List String) (levels : Nat) (rest : List FileStep) :
      Stops (.makeDirectories path :: rest) [.makeDirectories (FileTree.parent^[levels] path)]
  | amongBytes (path : List String) (bytes : List UInt8) (count : Nat) (rest : List FileStep) :
      Stops (.append path bytes :: rest) [.append path (bytes.take count)]
  | later (step : FileStep) {rest done : List FileStep} :
      Stops rest done → Stops (step :: rest) (step :: done)

theorem Stops.refl (steps : List FileStep) : Stops steps steps := by
  induction steps with
  | nil => exact .now []
  | cons step rest inductionHypothesis => exact .later step inductionHypothesis

variable {tree next left : FileTree} {step : FileStep} {problem : FileProblem}

theorem runAll_of_ok (ok : step.run tree = (next, none)) (rest : List FileStep) :
    runAll tree (step :: rest) = runAll next rest := by
  rw [runAll, ok]

theorem runAll_of_problem (failed : step.run tree = (left, some problem)) (rest : List FileStep) :
    runAll tree (step :: rest) = (left, some problem) := by
  rw [runAll, failed]

theorem runAll_singleton_fst (tree : FileTree) (step : FileStep) :
    (runAll tree [step]).1 = (step.run tree).1 := by
  rw [runAll]
  split
  next next ok => rw [runAll, ok]
  next left problem failed => rw [failed]

theorem exists_of_runAll_ok {last : FileTree} {rest : List FileStep}
    (ok : runAll tree (step :: rest) = (last, none)) :
    ∃ next, step.run tree = (next, none) ∧ runAll next rest = (last, none) := by
  rw [runAll] at ok
  split at ok
  next next first => exact ⟨next, first, ok⟩
  · cases ok

end FileStep

theorem FileTree.of_after {tree next : FileTree} {outcome : Except FileProblem FileTree}
    (ok : tree.after outcome = (next, none)) : outcome = .ok next := by
  cases outcome with
  | error problem => cases ok
  | ok made =>
    cases ok
    rfl

namespace FileKeeper

open FileTree

variable {keeper : FileKeeper} {tree next : FileTree} {place : List String}
  {before : Except FileProblem (List UInt8)} {content bytes : List UInt8}

/-! ## The two files -/

theorem path_of_noSlash (some_ : keeper.name ≠ "") (noSlash : '/' ∉ keeper.name.toList) :
    keeper.path = keeper.directory ++ [keeper.name] := by
  rw [path, partsWithEnd_of_noSlash some_ noSlash, if_neg some_, List.append_nil]

theorem path_eq (plain : IsPlain keeper.name) : keeper.path = keeper.directory ++ [keeper.name] :=
  path_of_noSlash plain.notEmpty plain.noSlash

theorem length_temporaryName (keeper : FileKeeper) :
    keeper.temporaryName.toList.length = keeper.name.toList.length + 4 := by
  rw [temporaryName, String.toList_append, List.length_append]
  rfl

theorem temporaryName_ne (keeper : FileKeeper) : keeper.temporaryName ≠ keeper.name := by
  intro eq
  have length := keeper.length_temporaryName
  rw [eq] at length
  omega

/-- The name of a temporary file has no characters but those of a name and of its ending. -/
theorem not_mem_temporaryName {c : Char} (absent : c ∉ keeper.name.toList)
    (other : c ∉ ['.', 't', 'm', 'p']) : c ∉ keeper.temporaryName.toList := by
  have ending : ".tmp".toList = ['.', 't', 'm', 'p'] := rfl
  rw [temporaryName, String.toList_append, ending, List.mem_append]
  exact fun mem => mem.elim absent other

theorem plain_temporaryName (plain : IsPlain keeper.name) : IsPlain keeper.temporaryName := by
  have long := keeper.length_temporaryName
  constructor
  · intro eq
    rw [eq] at long
    cases long
  · intro eq
    rw [eq] at long
    cases long
  · intro eq
    rw [eq] at long
    cases long
  · exact not_mem_temporaryName plain.noSlash (by decide)
  · exact not_mem_temporaryName plain.noNull (by decide)

theorem temporaryPath_of_noSlash (noSlash : '/' ∉ keeper.name.toList) :
    keeper.temporaryPath = keeper.directory ++ [keeper.temporaryName] := by
  have some_ : keeper.temporaryName ≠ "" := by
    intro eq
    have long := keeper.length_temporaryName
    rw [eq] at long
    cases long
  rw [temporaryPath, partsWithEnd_of_noSlash some_ (not_mem_temporaryName noSlash (by decide))]

theorem temporaryPath_eq (plain : IsPlain keeper.name) :
    keeper.temporaryPath = keeper.directory ++ [keeper.temporaryName] :=
  temporaryPath_of_noSlash plain.noSlash

theorem sibling_ne (keeper : FileKeeper) (place : List String) :
    place ++ [keeper.name] ≠ place ++ [keeper.temporaryName] := by
  intro eq
  rw [List.append_cancel_left_eq, List.singleton_inj] at eq
  exact keeper.temporaryName_ne eq.symm

/-! ## What a reader sees -/

/-- A tree in which the temporary file has some bytes and the checkpoint reads as before. -/
structure Filled (keeper : FileKeeper) (before : Except FileProblem (List UInt8)) (tree : FileTree)
    (place : List String) (content : List UInt8) : Prop where
  stands : tree.Stands keeper.directory place
  temporary : tree.lookup (place ++ [keeper.temporaryName]) = some (.file content)
  unread : tree.read keeper.path = before

/-- What is put at the place of the temporary file does not show. -/
theorem filled_put (plain : IsPlain keeper.name) (stands : tree.Stands keeper.directory place)
    (free : tree.lookup (place ++ [keeper.temporaryName]) ≠ some .directory)
    (content : List UInt8) :
    keeper.Filled (tree.read keeper.path)
      (tree.put (place ++ [keeper.temporaryName]) (.file content)) place content := by
  have still := stands.mono (keepsDirectories_put free (.file content))
  have inner : place ++ [keeper.temporaryName] ≠ [] := List.concat_ne_nil _ _
  refine ⟨still, lookup_put_self inner _, ?_⟩
  rw [path_eq plain]
  exact stands.read_congr still plain (lookup_put_of_ne (keeper.sibling_ne place) _)

theorem filled_of_truncate (plain : IsPlain keeper.name)
    (ok : tree.truncate keeper.temporaryPath = .ok next) :
    ∃ place, keeper.Filled (tree.read keeper.path) next place [] := by
  obtain ⟨goal, located, free, rfl⟩ := truncate_cases ok
  rw [temporaryPath_eq plain] at located
  obtain ⟨place, stands, rfl, -⟩ := exists_stands_of_locate (plain_temporaryName plain) located
  exact ⟨place, filled_put plain stands free []⟩

theorem Filled.append (filled : keeper.Filled before tree place content)
    (plain : IsPlain keeper.name) (ok : tree.append keeper.temporaryPath bytes = .ok next) :
    keeper.Filled before next place (content ++ bytes) := by
  obtain ⟨goal, held, located, found, rfl⟩ := append_cases ok
  rw [temporaryPath_eq plain] at located
  obtain ⟨place', stands, rfl, -⟩ := exists_stands_of_locate (plain_temporaryName plain) located
  cases filled.stands.located.symm.trans stands.located
  cases filled.temporary.symm.trans found
  have free : tree.lookup (place ++ [keeper.temporaryName]) ≠ some .directory := by simp [found]
  rw [← filled.unread]
  exact filled_put plain stands free (content ++ bytes)

theorem Filled.read_rename (filled : keeper.Filled before tree place content)
    (plain : IsPlain keeper.name)
    (ok : tree.rename keeper.temporaryPath keeper.path = .ok next) :
    next.read keeper.path = .ok content := by
  obtain ⟨source, goal, held, located, found, aimed, free, rfl⟩ := rename_cases ok
  rw [temporaryPath_eq plain] at located
  rw [path_eq plain] at aimed ⊢
  obtain ⟨_, stands, rfl, -⟩ := exists_stands_of_locate (plain_temporaryName plain) located
  cases filled.stands.located.symm.trans stands.located
  obtain ⟨_, there, rfl, named⟩ := exists_stands_of_locate plain aimed
  cases stands.located.symm.trans there.located
  cases filled.temporary.symm.trans found
  have still := (stands.mono (keepsDirectories_drop found)).mono
    (keepsDirectories_put (lookup_drop_ne_directory free) (.file content))
  rw [still.read_plain plain, if_neg (Nat.not_lt.2 named.short),
    lookup_put_self (List.concat_ne_nil _ _)]
  rfl

/-! ## Stops -/

/-- What a reader may see after steps: what there was before, or all of the bytes, the latter only
when no step failed. -/
def OldOrNew (keeper : FileKeeper) (before : Except FileProblem (List UInt8)) (bytes : List UInt8)
    (outcome : FileTree × Option FileProblem) : Prop :=
  outcome.1.read keeper.path = before ∨
    outcome.2 = none ∧ outcome.1.read keeper.path = .ok bytes

/-- A step that changes nothing when it fails comes before others. -/
theorem oldOrNew_after {step : FileStep} {done : List FileStep}
    {result : Except FileProblem FileTree} (run : step.run tree = tree.after result)
    (unread : tree.read keeper.path = before)
    (rest : ∀ next, result = .ok next →
      keeper.OldOrNew before bytes (FileStep.runAll next done)) :
    keeper.OldOrNew before bytes (FileStep.runAll tree (step :: done)) := by
  cases result with
  | error problem =>
    rw [FileStep.runAll_of_problem run]
    exact .inl unread
  | ok next =>
    rw [FileStep.runAll_of_ok run]
    exact rest next rfl

variable {done : List FileStep}

theorem Filled.stops_rename (filled : keeper.Filled before tree place bytes)
    (plain : IsPlain keeper.name)
    (stops : FileStep.Stops [.rename keeper.temporaryPath keeper.path] done) :
    keeper.OldOrNew before bytes (FileStep.runAll tree done) := by
  cases stops with
  | now => exact .inl filled.unread
  | later _ stops =>
    cases stops
    apply oldOrNew_after rfl filled.unread
    intro next ok
    exact .inr ⟨rfl, filled.read_rename plain ok⟩

theorem Filled.stops_append (filled : keeper.Filled before tree place [])
    (plain : IsPlain keeper.name)
    (stops : FileStep.Stops [.append keeper.temporaryPath bytes,
      .rename keeper.temporaryPath keeper.path] done) :
    keeper.OldOrNew before bytes (FileStep.runAll tree done) := by
  cases stops with
  | now => exact .inl filled.unread
  | amongBytes _ _ count =>
    apply oldOrNew_after rfl filled.unread
    intro next ok
    exact .inl (filled.append plain ok).unread
  | later _ stops =>
    apply oldOrNew_after rfl filled.unread
    intro next ok
    exact (filled.append plain ok).stops_rename plain stops

theorem stops_truncate (plain : IsPlain keeper.name)
    (stops : FileStep.Stops [.truncate keeper.temporaryPath,
      .append keeper.temporaryPath bytes, .rename keeper.temporaryPath keeper.path] done) :
    keeper.OldOrNew (tree.read keeper.path) bytes (FileStep.runAll tree done) := by
  cases stops with
  | now => exact .inl rfl
  | later _ stops =>
    apply oldOrNew_after rfl rfl
    intro next ok
    obtain ⟨place, filled⟩ := filled_of_truncate plain ok
    exact filled.stops_append plain stops

/-- The directories that are made for a name are on the way to its directory. -/
theorem isPrefix_parents (directory : List String) (name : String) (levels : Nat) :
    parent^[levels] (parent (directory ++ [name])) <+: solid directory := by
  induction levels with
  | zero =>
    rw [Function.iterate_zero, id, parent_eq, solid_append]
    by_cases blank : IsBlank name
    · rw [solid_cons_blank blank, show solid [] = [] from rfl, List.append_nil]
      exact List.dropLast_prefix _
    · rw [solid_cons blank, show solid [] = [] from rfl, List.dropLast_concat]
  | succ levels inductionHypothesis =>
    rw [Function.iterate_succ_apply']
    exact isPrefix_parent (fun _ => not_blank_of_mem_solid) inductionHypothesis

/-- The steps of a write stop somewhere, and making directories for it does not change what is
read. -/
theorem stops_write (plain : IsPlain keeper.name)
    (unread : ∀ levels, (tree.makeDirectories (parent^[levels] (parent keeper.path))).1.read
      keeper.path = tree.read keeper.path)
    (stops : FileStep.Stops (keeper.writeSteps bytes) done) :
    keeper.OldOrNew (tree.read keeper.path) bytes (FileStep.runAll tree done) := by
  cases stops with
  | now => exact .inl rfl
  | amongDirectories _ levels =>
    left
    rw [FileStep.runAll_singleton_fst]
    exact unread levels
  | later _ stops =>
    have made := unread 0
    rw [Function.iterate_zero, id] at made
    change ((FileStep.makeDirectories (parent keeper.path)).run tree).1.read keeper.path =
      tree.read keeper.path at made
    cases run : (FileStep.makeDirectories (parent keeper.path)).run tree with
    | mk next problem =>
      rw [run] at made
      cases problem with
      | some problem =>
        rw [FileStep.runAll_of_problem run]
        exact .inl made
      | none =>
        rw [FileStep.runAll_of_ok run, ← made]
        exact stops_truncate plain stops

/-- A write without a failure leaves all of the bytes to be read. -/
theorem read_of_written (plain : IsPlain keeper.name) {last : FileTree}
    (ok : FileStep.runAll tree (keeper.writeSteps bytes) = (last, none)) :
    last.read keeper.path = .ok bytes := by
  obtain ⟨made, -, ok⟩ := FileStep.exists_of_runAll_ok ok
  obtain ⟨empty, truncated, ok⟩ := FileStep.exists_of_runAll_ok ok
  obtain ⟨full, appended, ok⟩ := FileStep.exists_of_runAll_ok ok
  obtain ⟨renamed, moved, ok⟩ := FileStep.exists_of_runAll_ok ok
  cases ok
  obtain ⟨place, filled⟩ := filled_of_truncate plain (of_after truncated)
  exact (filled.append plain (of_after appended)).read_rename plain (of_after moved)

theorem write_eq (keeper : FileKeeper) (tree : FileTree) (writtenAt : Timestamp)
    (snapshot : Snapshot) {outcome : FileTree × Option FileProblem}
    (eq : FileStep.runAll tree (keeper.writeSteps
      (Text.encodeUtf8 (Checkpoint.encode writtenAt snapshot))) = outcome) :
    keeper.write tree writtenAt snapshot =
      (outcome.1, match outcome.2 with
        | none => .ok ()
        | some problem => .error (.file problem)) := by
  rw [write, eq]
  obtain ⟨left, problem⟩ := outcome
  cases problem with
  | none => rfl
  | some problem => rfl

theorem read_eq_of_unread {other : FileTree} (same : other.read keeper.path = tree.read keeper.path)
    (location : String) : keeper.read other location = keeper.read tree location := by
  rw [read, read, same]

end FileKeeper

/-- A checkpoint is written to a directory that stands or can be made, in a tree whose entries stand
in directories.  Wherever the write stops, reading gives what it gave before or the new checkpoint.
It gives the new one when the write succeeds, and what it gave before when the write fails. -/
theorem checkpoint_writes_are_atomic {tree : FileTree} (closed : tree.Closed) {keeper : FileKeeper}
    (plain : FileTree.IsPlain keeper.name) {base names : List String}
    (directory : keeper.directory = base ++ names) (stands : tree.isDirectory base = true)
    (all : ∀ part ∈ names, FileTree.IsName part ∨ FileTree.IsBlank part)
    (short : names = [] ∨ keeper.name.utf8ByteSize ≤ FileTree.maximumName)
    {snapshot : Snapshot} (plainStore : snapshot.store.Plain)
    (shallow : snapshot.toValue.depth ≤ maximumDepth) {writtenAt : Timestamp}
    (valid : writtenAt.Valid) (location : String) :
    (∀ done, FileStep.Stops
        (keeper.writeSteps (Text.encodeUtf8 (Checkpoint.encode writtenAt snapshot))) done →
      keeper.read (FileStep.runAll tree done).1 location = keeper.read tree location ∨
        keeper.read (FileStep.runAll tree done).1 location = .ok snapshot) ∧
      ((keeper.write tree writtenAt snapshot).2 = .ok () →
        keeper.read (keeper.write tree writtenAt snapshot).1 location = .ok snapshot) ∧
      ∀ problem, (keeper.write tree writtenAt snapshot).2 = .error problem →
        keeper.read (keeper.write tree writtenAt snapshot).1 location =
          keeper.read tree location := by
  obtain ⟨place, stands⟩ := FileTree.isDirectory_iff.1 stands
  generalize written : Text.encodeUtf8 (Checkpoint.encode writtenAt snapshot) = bytes
  have decoded : Checkpoint.decodeBytes bytes = .ok snapshot := by
    rw [← written, Checkpoint.decodeBytes_encodeUtf8, Checkpoint.decode_encode valid plainStore,
      if_pos shallow]
  have unread (levels : Nat) :
      (tree.makeDirectories (FileTree.parent^[levels] (FileTree.parent keeper.path))).1.read
        keeper.path = tree.read keeper.path := by
    rw [FileKeeper.path_eq plain, directory]
    exact stands.read_makeDirectories closed all plain short
      (FileKeeper.isPrefix_parents (base ++ names) keeper.name levels)
  have reads {other : FileTree} (same : other.read keeper.path = .ok bytes) :
      keeper.read other location = .ok snapshot := by
    rw [FileKeeper.read, same]
    exact decoded
  constructor
  · intro done stops
    rcases FileKeeper.stops_write plain unread stops with same | ⟨-, new⟩
    · exact .inl (FileKeeper.read_eq_of_unread same location)
    · exact .inr (reads new)
  · have whole := FileKeeper.stops_write plain unread (.refl (keeper.writeSteps bytes))
    cases eq : FileStep.runAll tree (keeper.writeSteps bytes) with
    | mk left problem =>
      rw [eq] at whole
      rw [← written] at eq
      rw [keeper.write_eq tree writtenAt snapshot eq]
      rw [written] at eq
      cases problem with
      | none =>
        constructor
        · intro _
          exact reads (FileKeeper.read_of_written plain eq)
        · rintro problem ⟨⟩
      | some problem =>
        constructor
        · rintro ⟨⟩
        · intro _ _
          rcases whole with same | ⟨⟨⟩, -⟩
          exact FileKeeper.read_eq_of_unread same location

/-- A tree with a checkpoint and what an earlier write left of its temporary file. -/
def FileTree.interrupted : FileTree :=
  (FileStep.runAll .empty
    [.makeDirectories ["jobs", "archive"], .truncate ["jobs", "archive", "job"],
    .truncate ["jobs", "archive", "job.tmp"],
    .append ["jobs", "archive", "job.tmp"] [123, 10]]).1

/-- A keeper whose directory is written with a slash too many. -/
def FileKeeper.archived : FileKeeper := ⟨["jobs", "", "archive"], "job"⟩

/-- A snapshot of one finished task. -/
def Snapshot.single : Snapshot := ⟨StateMap.bare.set .completed (.ofList ["a"]), .empty⟩

/-- The writing of `Snapshot.single` stops after seven bytes, or goes on to the end. -/
theorem interrupted_write_is_atomic :
    let bytes := Text.encodeUtf8 (Checkpoint.encode ⟨⟨2024, 2, 29⟩, 12, 0, 0, 0⟩ .single)
    let stopped := (FileStep.runAll .interrupted
      [.makeDirectories ["jobs", "archive"], .truncate ["jobs", "", "archive", "job.tmp"],
        .append ["jobs", "", "archive", "job.tmp"] (bytes.take 7)]).1
    let written := FileKeeper.archived.write .interrupted ⟨⟨2024, 2, 29⟩, 12, 0, 0, 0⟩ .single
    (FileKeeper.archived.read stopped "job" = FileKeeper.archived.read .interrupted "job" ∨
        FileKeeper.archived.read stopped "job" = .ok .single) ∧
      FileKeeper.archived.read written.1 "job" = .ok .single := by
  have closed : FileTree.interrupted.Closed := FileStep.closed_runAll .empty _
  have named : FileTree.IsName "archive" :=
    ⟨⟨by decide, by decide, by decide, by decide, by decide⟩, by decide⟩
  have plain : FileTree.IsPlain FileKeeper.archived.name :=
    ⟨by decide, by decide, by decide, by decide, by decide⟩
  have directory : FileKeeper.archived.directory = ["jobs"] ++ ["", "archive"] := rfl
  have stands : FileTree.interrupted.isDirectory ["jobs"] = true := by decide +kernel
  have all : ∀ part ∈ ["", "archive"], FileTree.IsName part ∨ FileTree.IsBlank part := by
    intro part mem
    rcases List.mem_pair.1 mem with rfl | rfl
    · exact .inr (.inl rfl)
    · exact .inl named
  have short : ["", "archive"] = [] ∨
      FileKeeper.archived.name.utf8ByteSize ≤ FileTree.maximumName := .inr (by decide)
  have plainStore : Snapshot.single.store.Plain := by
    intro entry listed
    cases listed
  have valid : Timestamp.Valid ⟨⟨2024, 2, 29⟩, 12, 0, 0, 0⟩ :=
    ⟨⟨by decide, by decide, by decide⟩, by decide, by decide, by decide⟩
  obtain ⟨stops, written, -⟩ := checkpoint_writes_are_atomic closed plain directory stands all short
    plainStore (by decide) valid "job"
  constructor
  · apply stops
    exact .later _ (.later _ (.amongBytes _ _ 7 _))
  · exact written rfl

end JobGraph
