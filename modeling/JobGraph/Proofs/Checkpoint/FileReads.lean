import JobGraph.Proofs.Checkpoint.FileTrees

/-!
# Reading below directories that are made

Making directories only adds directories on the way to the last of them (`FileTree.Grows`).  So an
entry at the end of that way reads as before, also where nothing could be read because a directory
was missing (`FileTree.Stands.read_makeDirectories`).
-/

namespace JobGraph

namespace FileTree

variable {tree other : FileTree} {place goal path names : List String} {part name : String}

/-! ## Reading an entry of a directory -/

/-- What reading answers for an entry. -/
def content : Option FileEntry → Except FileProblem (List UInt8)
  | some (.file bytes) => .ok bytes
  | some .directory => .error .isADirectory
  | none => .error .notFound

/-- What reading answers for a path from a place. -/
def readFrom (tree : FileTree) (place path : List String) : Except FileProblem (List UInt8) :=
  (tree.locateFrom place path).bind fun goal => content (tree.lookup goal)

theorem readFrom_of_missing (missing : tree.lookup place = none) (some_ : path ≠ []) :
    tree.readFrom place path = .error .notFound := by
  cases path with
  | nil => exact absurd rfl some_
  | cons part rest =>
    rw [readFrom, locateFrom, missing]
    rfl

theorem readFrom_of_file {bytes : List UInt8} (file : tree.lookup place = some (.file bytes))
    (some_ : path ≠ []) : tree.readFrom place path = .error .notADirectory := by
  cases path with
  | nil => exact absurd rfl some_
  | cons part rest =>
    rw [readFrom, locateFrom, file]
    rfl

theorem readFrom_blank (stands : tree.lookup place = some .directory) (blank : IsBlank part)
    (rest : List String) : tree.readFrom place (part :: rest) = tree.readFrom place rest := by
  rw [readFrom, locateFrom_blank stands blank, readFrom]

theorem readFrom_name (stands : tree.lookup place = some .directory) (named : IsName part)
    (rest : List String) :
    tree.readFrom place (part :: rest) = tree.readFrom (place ++ [part]) rest := by
  rw [readFrom, locateFrom_name stands named, readFrom]

theorem readFrom_plain (stands : tree.lookup place = some .directory) (plain : IsPlain name) :
    tree.readFrom place [name] =
      if maximumName < name.utf8ByteSize then .error .nameTooLong
      else content (tree.lookup (place ++ [name])) := by
  rw [readFrom, locateFrom_plain stands plain]
  split_ifs <;> rfl

namespace Stands

theorem read_append {front back : List String} (stands : tree.Stands front place)
    (noNull : ∀ part ∈ back, '\x00' ∉ part.toList) :
    tree.read (front ++ back) = tree.readFrom place back := by
  rw [read, stands.locate_append noNull]
  rfl

theorem read_plain (stands : tree.Stands path place) (plain : IsPlain name) :
    tree.read (path ++ [name]) =
      if maximumName < name.utf8ByteSize then .error .nameTooLong
      else content (tree.lookup (place ++ [name])) := by
  rw [stands.read_append (by simpa using plain.noNull), readFrom_plain stands.lookup plain]

/-- What is read depends on the entry only. -/
theorem read_congr (stands : tree.Stands path place) (others : other.Stands path place)
    (plain : IsPlain name) (same : other.lookup (place ++ [name]) = tree.lookup (place ++ [name])) :
    other.read (path ++ [name]) = tree.read (path ++ [name]) := by
  rw [stands.read_plain plain, others.read_plain plain, same]

end Stands

/-! ## Making directories -/

/-- What making directories on the way to a place does: it only adds directories, and these on the
way. -/
structure Grows (way : List String) (tree other : FileTree) : Prop where
  keeps : ∀ {place entry}, tree.lookup place = some entry → other.lookup place = some entry
  added : ∀ {place}, tree.lookup place = none →
    other.lookup place = none ∨ other.lookup place = some .directory ∧ place <+: way

namespace Grows

variable {way : List String} {last : FileTree}

theorem refl (way : List String) (tree : FileTree) : Grows way tree tree :=
  ⟨fun found => found, fun missing => .inl missing⟩

theorem trans (first : Grows way tree other) (second : Grows way other last) :
    Grows way tree last := by
  constructor
  · intro place entry found
    exact second.keeps (first.keeps found)
  · intro place missing
    rcases first.added missing with missing | ⟨made, onWay⟩
    · exact second.added missing
    · exact .inr ⟨second.keeps made, onWay⟩

theorem keepsDirectories (grows : Grows way tree other) : KeepsDirectories tree other :=
  fun _ stands => grows.keeps stands

theorem lookup_beyond (grows : Grows way tree other) (name : String) :
    other.lookup (way ++ [name]) = tree.lookup (way ++ [name]) := by
  cases found : tree.lookup (way ++ [name]) with
  | some entry => exact grows.keeps found
  | none =>
    rcases grows.added found with missing | ⟨-, onWay⟩
    · exact missing
    · have length := onWay.length_le
      rw [List.length_append, List.length_singleton] at length
      omega

end Grows

theorem locateFrom_names (all : ∀ name ∈ names, IsName name)
    (located : tree.locateFrom place names = .ok goal) : goal = place ++ names := by
  induction names generalizing place with
  | nil =>
    cases located
    rw [List.append_nil]
  | cons name rest inductionHypothesis =>
    obtain ⟨named, later⟩ := List.forall_mem_cons.1 all
    rw [locateFrom_name (lookup_of_locateFrom_cons located) named] at located
    rw [inductionHypothesis later located, List.append_assoc]
    rfl

/-- The first parts of a path lead to a directory and the others are names; any front part of it
leads to a directory too, or to a place on the way. -/
theorem Stands.reaches {base : List String} (stands : tree.Stands base place)
    (all : ∀ name ∈ names, IsName name) (part : path <+: base ++ names) :
    (∃ reached, tree.Stands path reached) ∨
      ∀ goal, tree.locate path = .ok goal → goal <+: place ++ names := by
  rcases List.prefix_or_prefix_of_prefix part (List.prefix_append base names) with
    ⟨rest, before⟩ | ⟨front, rfl⟩
  · rw [← before] at stands
    exact .inl stands.of_append
  · right
    intro goal located
    rw [List.prefix_append_right_inj] at part
    have named : ∀ name ∈ front, IsName name := fun name mem => all name (part.subset mem)
    rw [stands.locate_append fun part mem => (named part mem).noNull] at located
    rw [locateFrom_names named located]
    exact (List.prefix_append_right_inj place).2 part

theorem Stands.grows_makeDirectory {base : List String} (stands : tree.Stands base place)
    (all : ∀ name ∈ names, IsName name) (part : path <+: base ++ names) {made : FileTree}
    (ok : tree.makeDirectory path = .ok made) : Grows (place ++ names) tree made := by
  obtain ⟨goal, located, missing, rfl⟩ := makeDirectory_cases ok
  have onWay : goal <+: place ++ names := by
    rcases stands.reaches all part with ⟨reached, there⟩ | onWay
    · cases located.symm.trans there.located
      cases missing.symm.trans there.lookup
    · exact onWay goal located
  have inner : goal ≠ [] := by
    rintro rfl
    cases missing
  constructor
  · intro other entry found
    rwa [lookup_put_of_ne]
    rintro rfl
    cases missing.symm.trans found
  · intro other missing
    by_cases same : other = goal
    · subst same
      exact .inr ⟨lookup_put_self inner _, onWay⟩
    · exact .inl (by rwa [lookup_put_of_ne same])

theorem isPrefix_parent {way : List String} (noBlank : ∀ part ∈ way, ¬ IsBlank part)
    (part : path <+: way) : parent path <+: way := by
  rw [parent_eq, solid_eq_self fun name mem => noBlank name (part.subset mem)]
  exact (List.dropLast_prefix path).trans part

theorem Stands.grows_makeDirectoriesWithin {base : List String} (stands : tree.Stands base place)
    (all : ∀ name ∈ names, IsName name) (noBlank : ∀ part ∈ base, ¬ IsBlank part) (budget : Nat)
    (part : path <+: base ++ names) :
    Grows (place ++ names) tree (makeDirectoriesWithin budget tree path).1 := by
  have noBlanks : ∀ part ∈ base ++ names, ¬ IsBlank part := by
    intro part mem
    rcases List.mem_append.1 mem with mem | mem
    · exact noBlank part mem
    · exact (all part mem).not_blank
  apply makeDirectoriesWithin_induct (· <+: base ++ names) (fun _ => isPrefix_parent noBlanks) _
    budget (.refl _ tree) part
  intro next made path grown onWay ok
  have still := stands.mono grown.keepsDirectories
  exact grown.trans (still.grows_makeDirectory all onWay ok)

/-! ## Reading below directories that are made -/

/-- Where there are at most directories there is nothing to read. -/
theorem readFrom_of_bare (named : IsName name)
    (all : ∀ part ∈ names, IsName part ∨ IsBlank part)
    (bare : ∀ rest, tree.lookup (place ++ rest) = none ∨
      tree.lookup (place ++ rest) = some .directory)
    (missing : tree.lookup (place ++ solid names ++ [name]) = none) :
    tree.readFrom place (names ++ [name]) = .error .notFound := by
  induction names generalizing place with
  | nil =>
    rcases bare [] with nothing | stands
    · rw [List.append_nil] at nothing
      exact readFrom_of_missing nothing (List.cons_ne_nil name [])
    · rw [List.append_nil] at stands
      have absent : tree.lookup (place ++ [name]) = none := by simpa [solid] using missing
      rw [List.nil_append, readFrom_plain stands named.toIsPlain, if_neg (Nat.not_lt.2 named.short),
        absent]
      rfl
  | cons part rest inductionHypothesis =>
    obtain ⟨first, later⟩ := List.forall_mem_cons.1 all
    rcases bare [] with nothing | stands
    · rw [List.append_nil] at nothing
      exact readFrom_of_missing nothing (List.cons_ne_nil part (rest ++ [name]))
    · rw [List.append_nil] at stands
      rcases first with ordinary | blank
      · rw [List.cons_append, readFrom_name stands ordinary]
        apply inductionHypothesis later
        · intro rest
          rw [List.append_assoc]
          exact bare (part :: rest)
        · rw [solid_cons ordinary.not_blank] at missing
          rwa [List.append_assoc place]
      · rw [List.cons_append, readFrom_blank stands blank]
        rw [solid_cons_blank blank] at missing
        exact inductionHypothesis later bare missing

namespace Grows

variable {way : List String}

/-- Directories made below a missing place leave nothing to read there. -/
theorem readFrom_of_missing (grows : Grows way tree other) (closed : tree.Closed)
    (named : IsName name) (all : ∀ part ∈ names, IsName part ∨ IsBlank part)
    (missing : tree.lookup place = none)
    (same : other.lookup (place ++ solid names ++ [name]) =
      tree.lookup (place ++ solid names ++ [name])) :
    other.readFrom place (names ++ [name]) = .error .notFound := by
  apply readFrom_of_bare named all
  · intro rest
    exact (grows.added (closed.lookup_below missing rest)).imp_right And.left
  · rw [same, List.append_assoc]
    exact closed.lookup_below missing _

theorem readFrom_eq_of_ne_directory (grows : Grows way tree other) (closed : tree.Closed)
    (named : IsName name) (all : ∀ part ∈ names, IsName part ∨ IsBlank part)
    (blocked : tree.lookup place ≠ some .directory)
    (same : other.lookup (place ++ solid names ++ [name]) =
      tree.lookup (place ++ solid names ++ [name])) :
    other.readFrom place (names ++ [name]) = tree.readFrom place (names ++ [name]) := by
  have some_ : names ++ [name] ≠ [] :=
    List.append_ne_nil_of_right_ne_nil names (List.cons_ne_nil name [])
  cases found : tree.lookup place with
  | none =>
    rw [grows.readFrom_of_missing closed named all found same,
      FileTree.readFrom_of_missing found some_]
  | some entry =>
    cases entry with
    | file bytes => rw [readFrom_of_file found some_, readFrom_of_file (grows.keeps found) some_]
    | directory => exact absurd found blocked

/-- Directories made on the way to an entry do not change what is read there. -/
theorem readFrom_eq (grows : Grows way tree other) (closed : tree.Closed) (named : IsName name)
    (all : ∀ part ∈ names, IsName part ∨ IsBlank part)
    (same : other.lookup (place ++ solid names ++ [name]) =
      tree.lookup (place ++ solid names ++ [name])) :
    other.readFrom place (names ++ [name]) = tree.readFrom place (names ++ [name]) := by
  -- Both trees are walked as long as the old one has directories; the entry stays the same.
  induction names generalizing place with
  | nil =>
    by_cases found : tree.lookup place = some .directory
    · have entries : other.lookup (place ++ [name]) = tree.lookup (place ++ [name]) := by
        simpa [solid] using same
      rw [List.nil_append, readFrom_plain found named.toIsPlain,
        readFrom_plain (grows.keeps found) named.toIsPlain, entries]
    · exact grows.readFrom_eq_of_ne_directory closed named all found same
  | cons part rest inductionHypothesis =>
    obtain ⟨first, later⟩ := List.forall_mem_cons.1 all
    by_cases found : tree.lookup place = some .directory
    · rw [List.cons_append]
      rcases first with ordinary | blank
      · rw [readFrom_name found ordinary, readFrom_name (grows.keeps found) ordinary]
        apply inductionHypothesis later
        rw [solid_cons ordinary.not_blank] at same
        simpa using same
      · rw [readFrom_blank found blank, readFrom_blank (grows.keeps found) blank]
        rw [solid_cons_blank blank] at same
        exact inductionHypothesis later same
    · exact grows.readFrom_eq_of_ne_directory closed named all found same

end Grows

/-- Directories made on the way to an entry of a directory that stands, or that can be made by names
below one that stands, do not change what is read there. -/
theorem Stands.read_of_grows {base : List String} (stands : tree.Stands base place)
    (closed : tree.Closed) (all : ∀ part ∈ names, IsName part ∨ IsBlank part)
    (plain : IsPlain name) (short : names = [] ∨ name.utf8ByteSize ≤ maximumName)
    (grows : Grows (place ++ solid names) tree other) :
    other.read (base ++ names ++ [name]) = tree.read (base ++ names ++ [name]) := by
  have still := stands.mono grows.keepsDirectories
  rcases short with rfl | short
  · rw [List.append_nil]
    have same := grows.lookup_beyond name
    rw [show solid [] = [] from rfl, List.append_nil] at same
    exact stands.read_congr still plain same
  · have named : IsName name := { plain with short }
    have noNull : ∀ part ∈ names ++ [name], '\x00' ∉ part.toList := by
      intro part mem
      rcases List.mem_append.1 mem with mem | mem
      · rcases all part mem with named | rfl | rfl
        · exact named.noNull
        · decide
        · decide
      · rw [List.mem_singleton.1 mem]
        exact named.noNull
    rw [List.append_assoc, stands.read_append noNull, still.read_append noNull]
    exact grows.readFrom_eq closed named all (grows.lookup_beyond name)

theorem isName_of_mem_solid (all : ∀ part ∈ names, IsName part ∨ IsBlank part)
    (mem : part ∈ solid names) : IsName part :=
  (all part (List.mem_of_mem_filter mem)).resolve_right (not_blank_of_mem_solid mem)

theorem Stands.read_makeDirectories {base : List String} (stands : tree.Stands base place)
    (closed : tree.Closed) (all : ∀ part ∈ names, IsName part ∨ IsBlank part)
    (plain : IsPlain name) (short : names = [] ∨ name.utf8ByteSize ≤ maximumName)
    (part : path <+: solid (base ++ names)) :
    (tree.makeDirectories path).1.read (base ++ names ++ [name]) =
      tree.read (base ++ names ++ [name]) := by
  rw [solid_append] at part
  apply stands.read_of_grows closed all plain short
  exact stands.withoutBlanks.grows_makeDirectoriesWithin (fun _ => isName_of_mem_solid all)
    (fun _ => not_blank_of_mem_solid) _ part

end FileTree

end JobGraph
