import JobGraph.Checkpoint.Keeper
import JobGraph.Proofs.Containers
import Mathlib.Data.List.SplitBy

/-!
# Places in file trees

Which places paths lead to, and what the operations on a tree can do to it.  A path that leads to a
directory keeps doing so as long as the directories stay (`FileTree.Stands.mono`).  In a tree whose
entries all stand in directories nothing lies below a missing place, and every operation leaves such
a tree (`FileStep.closed_runAll`).
-/

namespace JobGraph

namespace FileTree

variable {tree other : FileTree} {place goal path names : List String} {part name : String}

/-! ## Entries -/

theorem lookup_root (tree : FileTree) : tree.lookup [] = some .directory := rfl

theorem ne_root_of_lookup (entry : tree.lookup place ≠ some .directory) : place ≠ [] := by
  rintro rfl
  exact entry (lookup_root tree)

theorem lookup_of_ne_root (inner : place ≠ []) :
    tree.lookup place = (tree.entries.find? fun entry => entry.1 == place).map Prod.snd := by
  rw [lookup, List.isEmpty_eq_false_iff.2 inner]
  rfl

theorem find?_filter_ne {entries : List (List String × FileEntry)} (ne : place ≠ goal) :
    (entries.filter fun old => old.1 != goal).find? (fun entry => entry.1 == place) =
      entries.find? fun entry => entry.1 == place := by
  rw [List.find?_filter]
  congr 1
  funext entry
  grind

theorem find?_filter_self (entries : List (List String × FileEntry)) :
    (entries.filter fun old => old.1 != goal).find? (fun entry => entry.1 == goal) = none := by
  rw [List.find?_eq_none]
  intro entry mem
  grind

theorem lookup_put_self (inner : goal ≠ []) (entry : FileEntry) :
    (tree.put goal entry).lookup goal = some entry := by
  rw [lookup_of_ne_root inner, put, List.find?_append, find?_filter_self]
  simp

theorem lookup_put_of_ne (ne : place ≠ goal) (entry : FileEntry) :
    (tree.put goal entry).lookup place = tree.lookup place := by
  by_cases inner : place = []
  · rw [inner, lookup_root, lookup_root]
  · rw [lookup_of_ne_root inner, lookup_of_ne_root inner, put, List.find?_append,
      find?_filter_ne ne]
    have passed : [(goal, entry)].find? (fun entry => entry.1 == place) = none := by grind
    rw [passed, Option.or_none]

theorem lookup_drop_of_ne (ne : place ≠ goal) :
    (tree.drop goal).lookup place = tree.lookup place := by
  by_cases inner : place = []
  · rw [inner, lookup_root, lookup_root]
  · rw [lookup_of_ne_root inner, lookup_of_ne_root inner, drop, find?_filter_ne ne]

theorem lookup_drop_self (inner : goal ≠ []) : (tree.drop goal).lookup goal = none := by
  rw [lookup_of_ne_root inner, drop, find?_filter_self]
  rfl

/-! ## Names -/

/-- A name that can stand for itself in a path. -/
structure IsPlain (name : String) : Prop where
  notEmpty : name ≠ ""
  notDot : name ≠ "."
  notDots : name ≠ ".."
  noSlash : '/' ∉ name.toList
  noNull : '\x00' ∉ name.toList

/-- A name that an entry can have. -/
structure IsName (name : String) : Prop extends IsPlain name where
  short : name.utf8ByteSize ≤ maximumName

/-- The parts of a path that stand for the directory reached so far. -/
def IsBlank (part : String) : Prop := part = "" ∨ part = "."

/-- A path without its blank parts. -/
def solid (path : List String) : List String := path.filter fun part => part ≠ "" ∧ part ≠ "."

theorem parent_eq (path : List String) : parent path = (solid path).dropLast := rfl

theorem solid_append (front back : List String) :
    solid (front ++ back) = solid front ++ solid back :=
  List.filter_append front back

theorem solid_cons_blank (blank : IsBlank part) (rest : List String) :
    solid (part :: rest) = solid rest := by
  have dropped : ¬ (part ≠ "" ∧ part ≠ ".") := fun kept => blank.elim kept.1 kept.2
  exact List.filter_cons_of_neg (by simpa using dropped)

theorem solid_cons (solidPart : ¬ IsBlank part) (rest : List String) :
    solid (part :: rest) = part :: solid rest :=
  List.filter_cons_of_pos (decide_eq_true (not_or.1 solidPart))

theorem not_blank_of_mem_solid (mem : part ∈ solid path) : ¬ IsBlank part := by
  have kept : part ≠ "" ∧ part ≠ "." := by simpa using (List.mem_filter.1 mem).2
  exact not_or.2 kept

theorem solid_eq_self (noBlank : ∀ part ∈ path, ¬ IsBlank part) : solid path = path := by
  apply List.filter_eq_self.2
  intro part mem
  exact decide_eq_true (not_or.1 (noBlank part mem))

theorem IsPlain.not_blank (plain : IsPlain name) : ¬ IsBlank name :=
  not_or.2 ⟨plain.notEmpty, plain.notDot⟩

theorem parts_of_noSlash (some_ : name ≠ "") (noSlash : '/' ∉ name.toList) :
    parts name = [name] := by
  have chars : name.toList ≠ [] := by simpa using some_
  have chain : name.toList.IsChain fun a b => decide (a ≠ '/' ∧ b ≠ '/') = true := by
    apply List.Pairwise.isChain
    apply List.Pairwise.imp_of_mem (R := fun _ _ => True)
    · intro a b memA memB _
      have left : a ≠ '/' := fun eq => noSlash (eq ▸ memA)
      have right : b ≠ '/' := fun eq => noSlash (eq ▸ memB)
      simp [left, right]
    · exact List.pairwise_of_forall fun _ _ => trivial
  have other : name.toList ≠ ['/'] := fun eq => noSlash (by simp [eq])
  rw [parts, List.splitBy_of_isChain chars chain]
  simp [other]

theorem partsWithEnd_of_noSlash (some_ : name ≠ "") (noSlash : '/' ∉ name.toList) :
    partsWithEnd name = [name] := by
  have last : name.toList.getLast? ≠ some '/' := by
    intro last
    exact noSlash (List.mem_of_getLast? last)
  rw [partsWithEnd, if_neg last, parts_of_noSlash some_ noSlash]

/-! ## Where paths lead -/

theorem locateFrom_append (front back : List String) (place : List String) :
    tree.locateFrom place (front ++ back) =
      (tree.locateFrom place front).bind fun reached => tree.locateFrom reached back := by
  induction front generalizing place with
  | nil => rfl
  | cons part rest inductionHypothesis =>
    rw [List.cons_append, locateFrom, locateFrom]
    cases tree.lookup place with
    | none => rfl
    | some entry =>
      cases entry with
      | file content => rfl
      | directory =>
        simp only [inductionHypothesis]
        split_ifs <;> rfl

theorem locateFrom_blank (stands : tree.lookup place = some .directory) (blank : IsBlank part)
    (rest : List String) : tree.locateFrom place (part :: rest) = tree.locateFrom place rest := by
  rw [locateFrom, stands]
  exact if_pos blank

theorem locateFrom_plain (stands : tree.lookup place = some .directory) (plain : IsPlain part)
    (rest : List String) :
    tree.locateFrom place (part :: rest) =
      if maximumName < part.utf8ByteSize then .error .nameTooLong
      else tree.locateFrom (place ++ [part]) rest := by
  have named : ¬ (part = "" ∨ part = ".") := plain.not_blank
  have noNull : ¬ part.toList.contains '\x00' = true := by simpa using plain.noNull
  rw [locateFrom, stands]
  simp only [if_neg named, if_neg plain.notDots, if_neg noNull]

theorem locateFrom_name (stands : tree.lookup place = some .directory) (named : IsName part)
    (rest : List String) :
    tree.locateFrom place (part :: rest) = tree.locateFrom (place ++ [part]) rest := by
  rw [locateFrom_plain stands named.toIsPlain, if_neg (Nat.not_lt.2 named.short)]

/-- Whether some tree has the directories of another. -/
def KeepsDirectories (tree other : FileTree) : Prop :=
  ∀ place, tree.lookup place = some .directory → other.lookup place = some .directory

theorem keepsDirectories_put (free : tree.lookup goal ≠ some .directory) (entry : FileEntry) :
    KeepsDirectories tree (tree.put goal entry) := by
  intro place stands
  rwa [lookup_put_of_ne]
  rintro rfl
  exact free stands

theorem keepsDirectories_drop {bytes : List UInt8} (file : tree.lookup goal = some (.file bytes)) :
    KeepsDirectories tree (tree.drop goal) := by
  intro place stands
  rwa [lookup_drop_of_ne]
  rintro rfl
  cases file.symm.trans stands

theorem lookup_drop_ne_directory (free : tree.lookup place ≠ some .directory) :
    (tree.drop goal).lookup place ≠ some .directory := by
  by_cases same : place = goal
  · rw [same, lookup_drop_self (ne_root_of_lookup (same ▸ free))]
    exact fun eq => by cases eq
  · rwa [lookup_drop_of_ne same]

theorem lookup_of_locateFrom_cons (located : tree.locateFrom place (part :: path) = .ok goal) :
    tree.lookup place = some .directory := by
  rw [locateFrom] at located
  cases found : tree.lookup place with
  | none =>
    rw [found] at located
    cases located
  | some entry =>
    cases entry with
    | directory => rfl
    | file content =>
      rw [found] at located
      cases located

theorem locateFrom_mono (keeps : KeepsDirectories tree other)
    (located : tree.locateFrom place path = .ok goal) : other.locateFrom place path = .ok goal := by
  induction path generalizing place with
  | nil => exact located
  | cons part rest inductionHypothesis =>
    have stands := lookup_of_locateFrom_cons located
    rw [locateFrom, stands] at located
    rw [locateFrom, keeps place stands]
    dsimp only at located ⊢
    split_ifs at located ⊢
    · exact inductionHypothesis located
    · exact inductionHypothesis located
    · exact inductionHypothesis located

theorem locateFrom_of_locate (located : tree.locate path = .ok goal) :
    tree.locateFrom [] path = .ok goal := by
  rw [locate] at located
  split_ifs at located
  exact located

theorem noNull_of_locate (located : tree.locate path = .ok goal) :
    ∀ part ∈ path, '\x00' ∉ part.toList := by
  rw [locate] at located
  split_ifs at located with nulls
  simpa using nulls

theorem locate_of_noNull (noNull : ∀ part ∈ path, '\x00' ∉ part.toList) :
    tree.locate path = tree.locateFrom [] path := by
  rw [locate, if_neg (by simpa using noNull)]

/-- Whether a path leads to a directory, which is at some place. -/
structure Stands (tree : FileTree) (path place : List String) : Prop where
  located : tree.locate path = .ok place
  lookup : tree.lookup place = some .directory

theorem isDirectory_iff : tree.isDirectory path = true ↔ ∃ place, tree.Stands path place := by
  rw [isDirectory]
  cases located : tree.locate path with
  | error problem =>
    constructor
    · intro contradiction
      cases contradiction
    · rintro ⟨place, stands⟩
      cases located.symm.trans stands.located
  | ok goal =>
    constructor
    · intro found
      exact ⟨goal, located, by simpa using found⟩
    · rintro ⟨place, stands⟩
      cases located.symm.trans stands.located
      simpa using stands.lookup

/-- What a path that goes on leads through is a directory. -/
theorem exists_stands_of_append {rest : List String}
    (located : tree.locate (path ++ part :: rest) = .ok goal) :
    ∃ place, tree.Stands path place ∧ tree.locateFrom place (part :: rest) = .ok goal := by
  have noNull : ∀ part ∈ path, '\x00' ∉ part.toList := fun other mem =>
    noNull_of_locate located other (List.mem_append_left (part :: rest) mem)
  have walked := locateFrom_of_locate located
  rw [locateFrom_append] at walked
  cases reached : tree.locateFrom [] path with
  | error problem =>
    rw [reached] at walked
    cases walked
  | ok place =>
    rw [reached] at walked
    exact ⟨place, ⟨by rw [locate_of_noNull noNull, reached], lookup_of_locateFrom_cons walked⟩,
      walked⟩

namespace Stands

variable {front back : List String}

theorem mono (stands : tree.Stands path place) (keeps : KeepsDirectories tree other) :
    other.Stands path place := by
  constructor
  · rw [locate_of_noNull (noNull_of_locate stands.located)]
    exact locateFrom_mono keeps (locateFrom_of_locate stands.located)
  · exact keeps place stands.lookup

theorem locate_append (stands : tree.Stands front place)
    (noNull : ∀ part ∈ back, '\x00' ∉ part.toList) :
    tree.locate (front ++ back) = tree.locateFrom place back := by
  have all : ∀ part ∈ front ++ back, '\x00' ∉ part.toList := by
    intro part mem
    rcases List.mem_append.1 mem with mem | mem
    · exact noNull_of_locate stands.located part mem
    · exact noNull part mem
  rw [locate_of_noNull all, locateFrom_append, locateFrom_of_locate stands.located]
  rfl

/-- What a path leads through stands. -/
theorem of_append (stands : tree.Stands (front ++ back) goal) :
    ∃ place, tree.Stands front place := by
  cases back with
  | nil =>
    rw [List.append_nil] at stands
    exact ⟨goal, stands⟩
  | cons part rest =>
    obtain ⟨place, through, -⟩ := exists_stands_of_append stands.located
    exact ⟨place, through⟩

theorem locateFrom_solid (located : tree.locateFrom place path = .ok goal) :
    tree.locateFrom place (solid path) = .ok goal := by
  induction path generalizing place with
  | nil => exact located
  | cons part rest inductionHypothesis =>
    have stands := lookup_of_locateFrom_cons located
    by_cases blank : IsBlank part
    · rw [locateFrom_blank stands blank] at located
      rw [solid_cons_blank blank]
      exact inductionHypothesis located
    · rw [solid_cons blank]
      rw [locateFrom, stands] at located ⊢
      dsimp only at located ⊢
      split_ifs at located ⊢
      · exact absurd ‹part = "" ∨ part = "."› blank
      · exact inductionHypothesis located
      · exact inductionHypothesis located

/-- The blank parts of a path do not count. -/
theorem withoutBlanks (stands : tree.Stands path place) : tree.Stands (solid path) place := by
  have noNull : ∀ part ∈ solid path, '\x00' ∉ part.toList := fun part mem =>
    noNull_of_locate stands.located part (List.mem_of_mem_filter mem)
  constructor
  · rw [locate_of_noNull noNull]
    exact locateFrom_solid (locateFrom_of_locate stands.located)
  · exact stands.lookup

theorem locateFrom_of_solid (located : tree.locateFrom place (solid path) = .ok goal)
    (stands : tree.lookup goal = some .directory) : tree.locateFrom place path = .ok goal := by
  induction path generalizing place with
  | nil => exact located
  | cons part rest inductionHypothesis =>
    by_cases blank : IsBlank part
    · rw [solid_cons_blank blank] at located
      have inside : tree.lookup place = some .directory := by
        cases kept : solid rest with
        | nil =>
          rw [kept] at located
          cases located
          exact stands
        | cons first others =>
          rw [kept] at located
          exact lookup_of_locateFrom_cons located
      rw [locateFrom_blank inside blank]
      exact inductionHypothesis located
    · rw [solid_cons blank] at located
      have inside := lookup_of_locateFrom_cons located
      rw [locateFrom, inside] at located ⊢
      dsimp only at located ⊢
      split_ifs at located ⊢
      · exact absurd ‹part = "" ∨ part = "."› blank
      · exact inductionHypothesis located
      · exact inductionHypothesis located

/-- Blank parts may be put into a path to a directory. -/
theorem withBlanks (stands : tree.Stands (solid path) place) : tree.Stands path place := by
  have noNull : ∀ part ∈ path, '\x00' ∉ part.toList := by
    intro part mem
    by_cases blank : IsBlank part
    · rcases blank with rfl | rfl <;> decide
    · exact noNull_of_locate stands.located part
        (List.mem_filter.2 ⟨mem, decide_eq_true (not_or.1 blank)⟩)
  constructor
  · rw [locate_of_noNull noNull]
    exact locateFrom_of_solid (locateFrom_of_locate stands.located) stands.lookup
  · exact stands.lookup

theorem locate_name (stands : tree.Stands path place) (named : IsName name) :
    tree.locate (path ++ [name]) = .ok (place ++ [name]) := by
  rw [stands.locate_append (by simpa using named.noNull), locateFrom_name stands.lookup named]
  rfl

end Stands

/-- A plain name at the end of a path that leads somewhere is that of an entry of a directory. -/
theorem exists_stands_of_locate (plain : IsPlain name)
    (located : tree.locate (path ++ [name]) = .ok goal) :
    ∃ place, tree.Stands path place ∧ goal = place ++ [name] ∧ IsName name := by
  obtain ⟨place, stands, walked⟩ := exists_stands_of_append located
  rw [locateFrom_plain stands.lookup plain] at walked
  split_ifs at walked with long
  cases walked
  exact ⟨place, stands, rfl, { plain with short := Nat.not_lt.1 long }⟩

/-! ## What the operations do -/

theorem makeDirectory_cases {made : FileTree} (ok : tree.makeDirectory path = .ok made) :
    ∃ place, tree.locate path = .ok place ∧ tree.lookup place = none ∧
      made = tree.put place .directory := by
  obtain ⟨place, located, rest⟩ := exists_of_bind ok
  split at rest
  · cases rest
  next missing =>
    cases rest
    exact ⟨place, located, missing, rfl⟩

theorem truncate_cases {next : FileTree} (ok : tree.truncate path = .ok next) :
    ∃ place, tree.locate path = .ok place ∧ tree.lookup place ≠ some .directory ∧
      next = tree.put place (.file []) := by
  obtain ⟨place, located, rest⟩ := exists_of_bind ok
  split at rest
  · cases rest
  next other =>
    cases rest
    exact ⟨place, located, other, rfl⟩

theorem truncate_eq (located : tree.locate path = .ok place)
    (free : tree.lookup place ≠ some .directory) :
    tree.truncate path = .ok (tree.put place (.file [])) := by
  simp only [truncate, located, bind, Except.bind]
  rfl

theorem append_cases {next : FileTree} {bytes : List UInt8}
    (ok : tree.append path bytes = .ok next) :
    ∃ place content, tree.locate path = .ok place ∧ tree.lookup place = some (.file content) ∧
      next = tree.put place (.file (content ++ bytes)) := by
  obtain ⟨place, located, rest⟩ := exists_of_bind ok
  split at rest
  next content found =>
    cases rest
    exact ⟨place, content, located, found, rfl⟩
  · cases rest
  · cases rest

theorem append_eq {content : List UInt8} (located : tree.locate path = .ok place)
    (file : tree.lookup place = some (.file content)) (bytes : List UInt8) :
    tree.append path bytes = .ok (tree.put place (.file (content ++ bytes))) := by
  simp only [append, located, bind, Except.bind, file]
  rfl

theorem rename_cases {next : FileTree} {source target : List String}
    (ok : tree.rename source target = .ok next) :
    ∃ place goal content, tree.locate source = .ok place ∧
      tree.lookup place = some (.file content) ∧ tree.locate target = .ok goal ∧
      tree.lookup goal ≠ some .directory ∧ next = (tree.drop place).put goal (.file content) := by
  obtain ⟨place, located, rest⟩ := exists_of_bind ok
  split at rest
  · cases rest
  · cases rest
  next content found =>
    split at rest
    · cases rest
    · obtain ⟨goal, aimed, rest⟩ := exists_of_bind rest
      split at rest
      · cases rest
      next other =>
        cases rest
        exact ⟨place, goal, content, located, found, aimed, other, rfl⟩

theorem rename_eq {source target : List String} {content : List UInt8}
    (located : tree.locate source = .ok place) (file : tree.lookup place = some (.file content))
    (ends : endsInDots target = false) (aimed : tree.locate target = .ok goal)
    (free : tree.lookup goal ≠ some .directory) :
    tree.rename source target = .ok ((tree.drop place).put goal (.file content)) := by
  simp only [rename, located, bind, Except.bind, file, ends, aimed]
  rfl

theorem removeFile_cases {next : FileTree} (ok : tree.removeFile path = .ok next) :
    ∃ place content, tree.locate path = .ok place ∧ tree.lookup place = some (.file content) ∧
      next = tree.drop place := by
  obtain ⟨place, located, rest⟩ := exists_of_bind ok
  split at rest
  · cases rest
  · cases rest
  next content found =>
    cases rest
    exact ⟨place, content, located, found, rfl⟩

theorem removeFile_eq {content : List UInt8} (located : tree.locate path = .ok place)
    (file : tree.lookup place = some (.file content)) :
    tree.removeFile path = .ok (tree.drop place) := by
  simp only [removeFile, located, bind, Except.bind, file]
  rfl

/-- Where there is nothing to read there is nothing to remove. -/
theorem removeFile_of_read (nothing : tree.read path = .error .notFound) :
    tree.removeFile path = .error .notFound := by
  cases located : tree.locate path with
  | error problem =>
    rw [read, located] at nothing
    cases nothing
    rw [removeFile, located]
    rfl
  | ok place =>
    simp only [read, located, bind, Except.bind] at nothing
    simp only [removeFile, located, bind, Except.bind]
    split at nothing
    · cases nothing
    · cases nothing
    next missing =>
      rw [missing]
      rfl

theorem isFile_eq_isOk_read (tree : FileTree) (path : List String) :
    tree.isFile path = (tree.read path).isOk := by
  cases located : tree.locate path with
  | error problem =>
    simp only [isFile, read, located, bind, Except.bind]
    rfl
  | ok place =>
    simp only [isFile, read, located, bind, Except.bind]
    cases tree.lookup place with
    | none => rfl
    | some entry => cases entry <;> rfl

/-- Making directories is making one after the other, each at the path or at the parent of one, and
so on. -/
theorem makeDirectoriesWithin_induct {holds : FileTree → Prop} (on : List String → Prop)
    (up : ∀ path, on path → on (parent path))
    (step : ∀ {tree made path}, holds tree → on path → tree.makeDirectory path = .ok made →
      holds made)
    (budget : Nat) (start : holds tree) (onPath : on path) :
    holds (makeDirectoriesWithin budget tree path).1 := by
  induction budget generalizing path with
  | zero => exact start
  | succ budget inductionHypothesis =>
    have above := inductionHypothesis (up path onPath)
    rw [makeDirectoriesWithin]
    split
    next made ok => exact step start onPath ok
    next missing =>
      split
      next left problem eq => rwa [eq] at above
      next left eq =>
        rw [eq] at above
        split
        next made ok => exact step above onPath ok
        next => exact above
    next => exact start

theorem stands_of_makeDirectory {made : FileTree} (ok : tree.makeDirectory path = .ok made) :
    ∃ place, tree.lookup place = none ∧ made = tree.put place .directory ∧
      made.Stands path place := by
  obtain ⟨place, located, missing, rfl⟩ := makeDirectory_cases ok
  have inner : place ≠ [] := by
    rintro rfl
    cases missing
  have keeps : KeepsDirectories tree (tree.put place .directory) :=
    keepsDirectories_put (by simp [missing]) .directory
  refine ⟨place, missing, rfl, ?_, lookup_put_self inner .directory⟩
  rw [locate_of_noNull (noNull_of_locate located)]
  exact locateFrom_mono keeps (locateFrom_of_locate located)

/-- Directories that can be made stand. -/
theorem isDirectory_makeDirectories (ok : (tree.makeDirectories path).2 = none) :
    (tree.makeDirectories path).1.isDirectory path = true := by
  have stands {above made : FileTree} (ok : above.makeDirectory path = .ok made) :
      made.isDirectory path = true := by
    obtain ⟨place, -, -, there⟩ := stands_of_makeDirectory ok
    exact isDirectory_iff.2 ⟨place, there⟩
  have passed {above : FileTree} {problem : FileProblem}
      (ok : (if above.isDirectory path then none else some problem) = none) :
      above.isDirectory path = true := by
    split_ifs at ok with there
    exact there
  revert ok
  rw [makeDirectories, makeDirectoriesWithin]
  split
  next first => exact fun _ => stands first
  next =>
    split
    next => exact fun ok => by cases ok
    next =>
      split
      next second => exact fun _ => stands second
      next => exact passed
  next => exact passed

/-- Where a directory stands, no directories are made. -/
theorem makeDirectories_of_isDirectory (stands : tree.isDirectory path = true) :
    tree.makeDirectories path = (tree, none) := by
  obtain ⟨place, there⟩ := isDirectory_iff.1 stands
  have exists_ : tree.makeDirectory path = .error .alreadyExists := by
    simp only [makeDirectory, there.located, bind, Except.bind, there.lookup]
    rfl
  rw [makeDirectories, makeDirectoriesWithin, exists_]
  simp only [stands, if_true]

/-! ## Trees whose entries stand in directories -/

/-- Whether every entry stands in a directory. -/
def Closed (tree : FileTree) : Prop :=
  ∀ ⦃place entry⦄, tree.lookup place = some entry → tree.lookup place.dropLast = some .directory

namespace Closed

theorem empty : Closed .empty := by
  intro place entry found
  by_cases inner : place = []
  · rw [inner]
    rfl
  · rw [lookup_of_ne_root inner] at found
    cases found

/-- Nothing lies below a missing place. -/
theorem lookup_below (closed : tree.Closed) (missing : tree.lookup place = none)
    (names : List String) : tree.lookup (place ++ names) = none := by
  induction names using List.reverseRecOn with
  | nil => rwa [List.append_nil]
  | append_singleton front name inductionHypothesis =>
    cases found : tree.lookup (place ++ (front ++ [name])) with
    | none => rfl
    | some entry =>
      have above := closed found
      rw [← List.append_assoc, List.dropLast_concat, inductionHypothesis] at above
      cases above

theorem lookup_dropLast_of_locateFrom (closed : tree.Closed)
    (start : tree.lookup place.dropLast = some .directory)
    (located : tree.locateFrom place path = .ok goal) :
    tree.lookup goal.dropLast = some .directory := by
  induction path generalizing place with
  | nil =>
    cases located
    exact start
  | cons part rest inductionHypothesis =>
    have stands := lookup_of_locateFrom_cons located
    rw [locateFrom, stands] at located
    dsimp only at located
    split_ifs at located
    · exact inductionHypothesis start located
    · exact inductionHypothesis (closed start) located
    · exact inductionHypothesis (by rwa [List.dropLast_concat]) located

theorem lookup_dropLast_of_locate (closed : tree.Closed) (located : tree.locate path = .ok goal) :
    tree.lookup goal.dropLast = some .directory :=
  have start : tree.lookup ([] : List String).dropLast = some .directory := lookup_root tree
  closed.lookup_dropLast_of_locateFrom start (locateFrom_of_locate located)

theorem put (closed : tree.Closed) (above : tree.lookup goal.dropLast = some .directory)
    {entry : FileEntry} (free : tree.lookup goal ≠ some .directory) :
    (tree.put goal entry).Closed := by
  intro place other found
  apply keepsDirectories_put free entry
  by_cases same : place = goal
  · rwa [same]
  · rw [lookup_put_of_ne same] at found
    exact closed found

theorem drop (closed : tree.Closed) {bytes : List UInt8}
    (file : tree.lookup goal = some (.file bytes)) : (tree.drop goal).Closed := by
  intro place other found
  apply keepsDirectories_drop file
  by_cases same : place = goal
  · have inner : goal ≠ [] := by
      rintro rfl
      cases file
    rw [same, lookup_drop_self inner] at found
    cases found
  · rw [lookup_drop_of_ne same] at found
    exact closed found

theorem makeDirectory (closed : tree.Closed) {made : FileTree}
    (ok : tree.makeDirectory path = .ok made) : made.Closed := by
  obtain ⟨place, located, missing, rfl⟩ := makeDirectory_cases ok
  apply closed.put (closed.lookup_dropLast_of_locate located)
  simp [missing]

theorem makeDirectoriesWithin (closed : tree.Closed) (budget : Nat) (path : List String) :
    (makeDirectoriesWithin budget tree path).1.Closed :=
  makeDirectoriesWithin_induct (fun _ => True) (fun _ _ => trivial)
    (fun before _ ok => before.makeDirectory ok) budget closed trivial

theorem truncate (closed : tree.Closed) {next : FileTree}
    (ok : tree.truncate path = .ok next) : next.Closed := by
  obtain ⟨place, located, free, rfl⟩ := truncate_cases ok
  exact closed.put (closed.lookup_dropLast_of_locate located) free

theorem append (closed : tree.Closed) {next : FileTree} {bytes : List UInt8}
    (ok : tree.append path bytes = .ok next) : next.Closed := by
  obtain ⟨place, content, located, file, rfl⟩ := append_cases ok
  apply closed.put (closed.lookup_dropLast_of_locate located)
  simp [file]

theorem rename (closed : tree.Closed) {next : FileTree} {source target : List String}
    (ok : tree.rename source target = .ok next) : next.Closed := by
  obtain ⟨place, goal, bytes, located, file, aimed, free, rfl⟩ := rename_cases ok
  apply (closed.drop file).put
  · exact keepsDirectories_drop file _ (closed.lookup_dropLast_of_locate aimed)
  · exact lookup_drop_ne_directory free

end Closed

end FileTree

namespace FileStep

open FileTree

theorem after_fst {tree : FileTree} {outcome : Except FileProblem FileTree}
    {holds : FileTree → Prop} (before : holds tree) (ok : ∀ next, outcome = .ok next → holds next) :
    holds (tree.after outcome).1 := by
  cases outcome with
  | ok next => exact ok next rfl
  | error problem => exact before

theorem closed_run {tree : FileTree} (closed : tree.Closed) (step : FileStep) :
    (step.run tree).1.Closed := by
  cases step with
  | makeDirectories path => exact closed.makeDirectoriesWithin _ path
  | truncate path => exact after_fst closed fun _ ok => closed.truncate ok
  | append path bytes => exact after_fst closed fun _ ok => closed.append ok
  | rename source target => exact after_fst closed fun _ ok => closed.rename ok

theorem closed_of_run {tree next : FileTree} {step : FileStep} {problem : Option FileProblem}
    (closed : tree.Closed) (run : step.run tree = (next, problem)) : next.Closed := by
  have left := closed_run closed step
  rwa [run] at left

/-- Steps leave a tree whose entries stand in directories, wherever they fail. -/
theorem closed_runAll {tree : FileTree} (closed : tree.Closed) (steps : List FileStep) :
    (runAll tree steps).1.Closed := by
  induction steps generalizing tree with
  | nil => exact closed
  | cons step rest inductionHypothesis =>
    have next := closed_run closed step
    rw [runAll]
    split
    next made eq =>
      rw [eq] at next
      exact inductionHypothesis next
    next left problem eq => rwa [eq] at next

end FileStep

end JobGraph
