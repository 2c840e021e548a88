import JobGraph.Error
import JobGraph.Text.Bytes

/-!
# File trees

The directories and files below a root.  A path is the list of its parts; empty parts and single
dots stand for the directory reached so far and two dots for the one above it.  Every operation
says how it fails.  A failed operation changes nothing, except that directories made on the way to
another stay.
-/

namespace JobGraph

/-- What a name stands for. -/
inductive FileEntry where
  | directory
  | file (content : List UInt8)
  deriving DecidableEq, Repr

/-- The entries below a root, each under the names that lead to it. -/
structure FileTree where
  entries : List (List String × FileEntry)
  deriving DecidableEq, Repr

namespace FileTree

def empty : FileTree := ⟨[]⟩

/-- The longest name, in bytes. -/
def maximumName : Nat := 255

def parts (path : String) : List String :=
  (path.toList.splitBy fun a b => a ≠ '/' ∧ b ≠ '/').filterMap fun run =>
    if run = ['/'] then none else some (String.ofList run)

/-- The parts of a path, with an empty part at the end if the path ends in a slash. -/
def partsWithEnd (path : String) : List String :=
  if path.toList.getLast? = some '/' then parts path ++ [""] else parts path

def lookup (tree : FileTree) (place : List String) : Option FileEntry :=
  if place.isEmpty then some .directory
  else (tree.entries.find? fun entry => entry.1 == place).map Prod.snd

def put (tree : FileTree) (place : List String) (entry : FileEntry) : FileTree :=
  ⟨tree.entries.filter (fun old => old.1 != place) ++ [(place, entry)]⟩

def drop (tree : FileTree) (place : List String) : FileTree :=
  ⟨tree.entries.filter fun old => old.1 != place⟩

/-- The place that parts lead to from a place.  Only the last name may stand for nothing. -/
def locateFrom (tree : FileTree) (place : List String) :
    List String → Except FileProblem (List String)
  | [] => .ok place
  | part :: rest =>
    match tree.lookup place with
    | none => .error .notFound
    | some (.file _) => .error .notADirectory
    | some .directory =>
      if part = "" ∨ part = "." then tree.locateFrom place rest
      else if part = ".." then tree.locateFrom place.dropLast rest
      else if part.toList.contains '\x00' then .error .invalidInput
      else if maximumName < part.utf8ByteSize then .error .nameTooLong
      else tree.locateFrom (place ++ [part]) rest

def locate (tree : FileTree) (path : List String) : Except FileProblem (List String) :=
  if path.any fun part => part.toList.contains '\x00' then .error .invalidInput
  else tree.locateFrom [] path

/-- Whether a path ends in a way that names a directory by its position. -/
def endsInDots (path : List String) : Bool :=
  match path.getLast? with
  | some part => part == "." || part == ".."
  | none => true

def isFile (tree : FileTree) (path : List String) : Bool :=
  match tree.locate path with
  | .ok place =>
    match tree.lookup place with
    | some (.file _) => true
    | _ => false
  | .error _ => false

def isDirectory (tree : FileTree) (path : List String) : Bool :=
  match tree.locate path with
  | .ok place => tree.lookup place == some .directory
  | .error _ => false

def read (tree : FileTree) (path : List String) : Except FileProblem (List UInt8) := do
  match tree.lookup (← tree.locate path) with
  | some (.file content) => return content
  | some .directory => throw .isADirectory
  | none => throw .notFound

def makeDirectory (tree : FileTree) (path : List String) : Except FileProblem FileTree := do
  let place ← tree.locate path
  match tree.lookup place with
  | some _ => throw .alreadyExists
  | none => return tree.put place .directory

/-- The path of the directory that lexically holds a path. -/
def parent (path : List String) : List String :=
  (path.filter fun part => part ≠ "" ∧ part ≠ ".").dropLast

/-- Makes a directory and those above it; the first argument bounds how many.  What was made before
a failure stays. -/
def makeDirectoriesWithin : Nat → FileTree → List String → FileTree × Option FileProblem
  | 0, tree, _ => (tree, none)
  | budget + 1, tree, path =>
    match tree.makeDirectory path with
    | .ok made => (made, none)
    | .error .notFound =>
      match makeDirectoriesWithin budget tree (parent path) with
      | (above, some problem) => (above, some problem)
      | (above, none) =>
        match above.makeDirectory path with
        | .ok made => (made, none)
        | .error problem => (above, if above.isDirectory path then none else some problem)
    | .error problem => (tree, if tree.isDirectory path then none else some problem)

/-- Makes a directory and those above it that are missing: the tree this leaves, and what the
failure was. -/
def makeDirectories (tree : FileTree) (path : List String) : FileTree × Option FileProblem :=
  makeDirectoriesWithin (path.length + 1) tree path

/-- Makes an empty file, or empties the one there is. -/
def truncate (tree : FileTree) (path : List String) : Except FileProblem FileTree := do
  let place ← tree.locate path
  match tree.lookup place with
  | some .directory => throw .isADirectory
  | _ => return tree.put place (.file [])

def append (tree : FileTree) (path : List String) (bytes : List UInt8) :
    Except FileProblem FileTree := do
  let place ← tree.locate path
  match tree.lookup place with
  | some (.file content) => return tree.put place (.file (content ++ bytes))
  | some .directory => throw .isADirectory
  | none => throw .notFound

/-- The tree with a file, the directories above it included; unchanged if there is no place for
it. -/
def withFile (tree : FileTree) (path : List String) (bytes : List UInt8) : FileTree :=
  match tree.makeDirectories (parent path) with
  | (made, none) => ((truncate made path).bind (append · path bytes)).toOption.getD tree
  | (_, some _) => tree

/-- Gives a file another name, in place of what has that name. -/
def rename (tree : FileTree) (source target : List String) : Except FileProblem FileTree := do
  let place ← tree.locate source
  match tree.lookup place with
  | none => throw .notFound
  | some .directory => throw .isADirectory
  | some (.file content) =>
    if endsInDots target then throw .resourceBusy
    let goal ← tree.locate target
    match tree.lookup goal with
    | some .directory => throw .isADirectory
    | _ => return (tree.drop place).put goal (.file content)

def removeFile (tree : FileTree) (path : List String) : Except FileProblem FileTree := do
  let place ← tree.locate path
  match tree.lookup place with
  | none => throw .notFound
  | some .directory => throw .isADirectory
  | some (.file _) => return tree.drop place

/-- What an operation that changes nothing when it fails makes of a tree. -/
def after (tree : FileTree) : Except FileProblem FileTree → FileTree × Option FileProblem
  | .ok next => (next, none)
  | .error problem => (tree, some problem)

/-- Every entry by its path, in order; the path of a directory ends in a slash. -/
def listing (tree : FileTree) : List String :=
  let shown := tree.entries.map fun (place, entry) =>
    String.intercalate "/" place ++ (if entry = .directory then "/" else "")
  shown.mergeSort (· ≤ ·)

end FileTree

end JobGraph
