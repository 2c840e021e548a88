import JobGraph.Proofs.Checkpoint.AtomicWrites

/-!
# A slot stands in for a file

Calls of a keeper get the same answers from a file in a directory of its own as from a slot in
memory (`slot_stands_in_for_file`).  Both are compared with the snapshot that was written last and
not cleared since: a file by the two entries of its directory (`FileKeeper.Holds`), a slot by its
bytes.
-/

namespace JobGraph

open FileTree
open Json (maximumDepth)

/-! ## Calls and answers -/

/-- A call of a keeper.  What is written bears the time at which the keeper of a file or that of a
slot looks at the clock. -/
inductive KeeperCall where
  | write (snapshot : Snapshot) (filedAt slottedAt : Timestamp)
  | read
  | clear

/-- What a call comes to: a failure, or a snapshot where one was asked for. -/
abbrev KeeperAnswer := Except Error (Option Snapshot)

namespace KeeperAnswer

/-- An answer with another place where there is no checkpoint. -/
def relocate (location : String) : KeeperAnswer → KeeperAnswer
  | .error (.noCheckpoint _) => .error (.noCheckpoint location)
  | answer => answer

/-- The answer that a snapshot which is kept calls for. -/
def ofKept (location : String) : Option Snapshot → KeeperAnswer
  | some snapshot => .ok (some snapshot)
  | none => .error (.noCheckpoint location)

end KeeperAnswer

namespace KeeperCall

/-- Whether what is written can be read back. -/
def Fits : KeeperCall → Prop
  | .write snapshot filedAt slottedAt =>
    snapshot.store.Plain ∧ snapshot.toValue.depth ≤ maximumDepth ∧ filedAt.Valid ∧ slottedAt.Valid
  | .read | .clear => True

/-- The answer to a call where a snapshot is kept or none, and what is kept then: the snapshot that
was written last, unless it was cleared. -/
def answer (location : String) (kept : Option Snapshot) :
    KeeperCall → KeeperAnswer × Option Snapshot
  | .write snapshot _ _ => (.ok none, some snapshot)
  | .read => (.ofKept location kept, kept)
  | .clear => (.ok none, none)

/-- The answers to calls one after the other, and what they leave. -/
def serve {σ : Type} (answer : σ → KeeperCall → KeeperAnswer × σ) (state : σ) :
    List KeeperCall → List KeeperAnswer × σ
  | [] => ([], state)
  | call :: rest =>
    let (first, next) := answer state call
    let (others, last) := serve answer next rest
    (first :: others, last)

end KeeperCall

def FileKeeper.answer (keeper : FileKeeper) (location : String) (tree : FileTree) :
    KeeperCall → KeeperAnswer × FileTree
  | .write snapshot filedAt _ =>
    let (next, result) := keeper.write tree filedAt snapshot
    (result.map fun _ => none, next)
  | .read => ((keeper.read tree location).map some, tree)
  | .clear =>
    let (next, result) := keeper.clear tree
    (result.map fun _ => none, next)

def SlotKeeper.answer (keeper : SlotKeeper) : KeeperCall → KeeperAnswer × SlotKeeper
  | .write snapshot _ slottedAt => (.ok none, keeper.write slottedAt snapshot)
  | .read => (keeper.read.map some, keeper)
  | .clear => (.ok none, keeper.clear)

namespace KeeperCall

variable {σ τ : Type} {left : σ} {right : τ} {calls : List KeeperCall}

/-- Keepers whose states stay related, and whose answers are those of the other up to some part that
does not count, answer any calls so. -/
theorem serve_eq_of_related (answer : σ → KeeperCall → KeeperAnswer × σ)
    (other : τ → KeeperCall → KeeperAnswer × τ) (view : KeeperAnswer → KeeperAnswer)
    (related : σ → τ → Prop)
    (step : ∀ {left right call}, related left right → call.Fits →
      view (answer left call).1 = (other right call).1 ∧
        related (answer left call).2 (other right call).2)
    (start : related left right) (fits : ∀ call ∈ calls, call.Fits) :
    (serve answer left calls).1.map view = (serve other right calls).1 ∧
      related (serve answer left calls).2 (serve other right calls).2 := by
  induction calls generalizing left right with
  | nil => exact ⟨rfl, start⟩
  | cons call rest inductionHypothesis =>
    obtain ⟨first, others⟩ := List.forall_mem_cons.1 fits
    obtain ⟨same, next⟩ := step start first
    obtain ⟨answers, last⟩ := inductionHypothesis next others
    exact ⟨congrArg₂ List.cons same answers, last⟩

/-- The place where there is no checkpoint shows in nothing else. -/
theorem relocate_serve (location place : String) (kept : Option Snapshot)
    (fits : ∀ call ∈ calls, call.Fits) :
    (serve (answer location) kept calls).1.map (KeeperAnswer.relocate place) =
        (serve (answer place) kept calls).1 ∧
      (serve (answer location) kept calls).2 = (serve (answer place) kept calls).2 := by
  refine serve_eq_of_related _ _ (KeeperAnswer.relocate place) Eq ?_ rfl fits
  rintro kept _ call rfl -
  cases call with
  | write snapshot filedAt slottedAt => exact ⟨rfl, rfl⟩
  | read =>
    constructor
    · cases kept <;> rfl
    · rfl
  | clear => exact ⟨rfl, rfl⟩

end KeeperCall

/-! ## Slots -/

/-- Whether what is kept is in a slot: bytes that decode to the snapshot, or nothing. -/
inductive Snapshot.IsIn : Option Snapshot → Option (List UInt8) → Prop
  | nothing : IsIn none none
  | bytes {snapshot : Snapshot} {bytes : List UInt8} :
      Checkpoint.decodeBytes bytes = .ok snapshot → IsIn (some snapshot) (some bytes)

theorem Snapshot.isIn_encode {snapshot : Snapshot} {writtenAt : Timestamp}
    (plain : snapshot.store.Plain) (shallow : snapshot.toValue.depth ≤ maximumDepth)
    (valid : writtenAt.Valid) :
    IsIn (some snapshot) (some (Text.encodeUtf8 (Checkpoint.encode writtenAt snapshot))) := by
  apply IsIn.bytes
  rw [Checkpoint.decodeBytes_encodeUtf8, Checkpoint.decode_encode valid plain, if_pos shallow]

theorem Snapshot.IsIn.isSome_eq {kept : Option Snapshot} {slot : Option (List UInt8)}
    (isIn : IsIn kept slot) : kept.isSome = slot.isSome := by
  cases isIn <;> rfl

theorem SlotKeeper.answer_eq {slot : SlotKeeper} {kept : Option Snapshot} {call : KeeperCall}
    (isIn : Snapshot.IsIn kept slot.slot) (fits : call.Fits) :
    (slot.answer call).1 = (call.answer location kept).1 ∧
      Snapshot.IsIn (call.answer location kept).2 (slot.answer call).2.slot := by
  cases call with
  | write snapshot filedAt slottedAt =>
    obtain ⟨plain, shallow, -, valid⟩ := fits
    exact ⟨rfl, Snapshot.isIn_encode plain shallow valid⟩
  | read =>
    refine ⟨?_, isIn⟩
    obtain ⟨bytes, writes⟩ := slot
    change (SlotKeeper.read ⟨bytes, writes⟩).map some = KeeperAnswer.ofKept location kept
    rw [SlotKeeper.read]
    cases isIn with
    | nothing => rfl
    | bytes decoded =>
      dsimp only
      rw [decoded]
      rfl
  | clear => exact ⟨rfl, .nothing⟩

/-! ## Files -/

namespace FileKeeper

variable {keeper : FileKeeper} {tree made : FileTree} {place : List String}
  {slot : Option (List UInt8)} {bytes : List UInt8}

/-- What is in the directory of a keeper: bytes of a checkpoint, if any, and no temporary file. -/
structure Holds (keeper : FileKeeper) (tree : FileTree) (place : List String)
    (slot : Option (List UInt8)) : Prop where
  stands : tree.Stands keeper.directory place
  checkpoint : tree.lookup (place ++ [keeper.name]) = slot.map .file
  temporary : tree.lookup (place ++ [keeper.temporaryName]) = none

/-- Whether a keeper can make its directory, finds neither of its files there or anything else that
has one of their names, and can give the files these names. -/
structure IsReady (keeper : FileKeeper) (tree : FileTree) : Prop where
  plain : IsPlain keeper.name
  short : keeper.temporaryName.utf8ByteSize ≤ maximumName
  makes : (tree.makeDirectories (parent keeper.path)).2 = none
  empty : tree.read keeper.path = .error .notFound
  clean : tree.read keeper.temporaryPath = .error .notFound
  free : (tree.makeDirectories (parent keeper.path)).1.isDirectory keeper.path = false
  temporaryFree :
    (tree.makeDirectories (parent keeper.path)).1.isDirectory keeper.temporaryPath = false

/-- Names short enough for a temporary file are short enough for a checkpoint. -/
theorem isName_of_short (plain : IsPlain keeper.name)
    (short : keeper.temporaryName.utf8ByteSize ≤ maximumName) :
    IsName keeper.name ∧ IsName keeper.temporaryName := by
  refine ⟨{ plain with short := ?_ }, { plain_temporaryName plain with short }⟩
  have longer : keeper.temporaryName.utf8ByteSize = keeper.name.utf8ByteSize + 4 := by
    rw [temporaryName, String.utf8ByteSize_append]
    rfl
  omega

theorem parent_path (plain : IsPlain keeper.name) :
    parent keeper.path = solid keeper.directory := by
  rw [path_eq plain, parent_eq, solid_append, solid_cons plain.not_blank,
    show solid [] = [] from rfl, List.dropLast_concat]

theorem endsInDots_path (plain : IsPlain keeper.name) : endsInDots keeper.path = false := by
  rw [path_eq plain, endsInDots, List.getLast?_concat]
  simp [plain.notDot, plain.notDots]

theorem run_of_ok {step : FileStep} {outcome : Except FileProblem FileTree}
    {next : FileTree} (run : step.run tree = tree.after outcome) (ok : outcome = .ok next) :
    step.run tree = (next, none) := by
  rw [run, ok]
  rfl

theorem locate_temporaryPath (plain : IsPlain keeper.name)
    (short : keeper.temporaryName.utf8ByteSize ≤ maximumName)
    (stands : tree.Stands keeper.directory place) :
    tree.locate keeper.temporaryPath = .ok (place ++ [keeper.temporaryName]) := by
  rw [temporaryPath_eq plain, stands.locate_name (isName_of_short plain short).2]

/-- A temporary file takes the place of the checkpoint. -/
theorem Filled.holds_rename {before : Except FileProblem (List UInt8)}
    (filled : keeper.Filled before tree place bytes) (plain : IsPlain keeper.name)
    (short : keeper.temporaryName.utf8ByteSize ≤ maximumName)
    (free : tree.lookup (place ++ [keeper.name]) ≠ some .directory) :
    ∃ next, tree.rename keeper.temporaryPath keeper.path = .ok next ∧
      keeper.Holds next place (some bytes) := by
  have aimed := filled.stands.locate_name (isName_of_short plain short).1
  rw [← path_eq plain] at aimed
  have dropped := filled.stands.mono (keepsDirectories_drop filled.temporary)
  refine ⟨_, rename_eq (locate_temporaryPath plain short filled.stands) filled.temporary
    (endsInDots_path plain) aimed free, ?_⟩
  refine ⟨dropped.mono (keepsDirectories_put (lookup_drop_ne_directory free) _), ?_, ?_⟩
  · exact lookup_put_self (List.concat_ne_nil _ _) _
  · rw [lookup_put_of_ne (keeper.sibling_ne place).symm, lookup_drop_self (List.concat_ne_nil _ _)]

/-- The steps of a write after its directory stands. -/
theorem holds_of_steps (plain : IsPlain keeper.name)
    (short : keeper.temporaryName.utf8ByteSize ≤ maximumName)
    (stands : made.Stands keeper.directory place)
    (free : made.lookup (place ++ [keeper.name]) ≠ some .directory)
    (temporaryFree : made.lookup (place ++ [keeper.temporaryName]) ≠ some .directory)
    (bytes : List UInt8) :
    ∃ next, FileStep.runAll made [.truncate keeper.temporaryPath,
        .append keeper.temporaryPath bytes, .rename keeper.temporaryPath keeper.path] =
          (next, none) ∧ keeper.Holds next place (some bytes) := by
  have ne := keeper.sibling_ne place
  have emptied := filled_put plain stands temporaryFree []
  have truncated := truncate_eq (locate_temporaryPath plain short stands) temporaryFree
  have file := emptied.temporary
  have filled := filled_put plain emptied.stands (by simp [file]) ([] ++ bytes)
  have appended := append_eq (locate_temporaryPath plain short emptied.stands) file bytes
  obtain ⟨next, renamed, holds⟩ := filled.holds_rename plain short
    (by rwa [lookup_put_of_ne ne, lookup_put_of_ne ne])
  refine ⟨next, ?_, holds⟩
  rw [FileStep.runAll_of_ok (run_of_ok rfl truncated),
    FileStep.runAll_of_ok (run_of_ok rfl appended), FileStep.runAll_of_ok (run_of_ok rfl renamed)]
  rfl

/-- A write in a directory that can be made or stands. -/
theorem holds_of_write (plain : IsPlain keeper.name)
    (short : keeper.temporaryName.utf8ByteSize ≤ maximumName)
    (makes : tree.makeDirectories (parent keeper.path) = (made, none))
    (stands : made.Stands keeper.directory place)
    (free : made.lookup (place ++ [keeper.name]) ≠ some .directory)
    (temporaryFree : made.lookup (place ++ [keeper.temporaryName]) ≠ some .directory)
    (writtenAt : Timestamp) (snapshot : Snapshot) :
    ∃ next, keeper.write tree writtenAt snapshot = (next, .ok ()) ∧
      keeper.Holds next place
        (some (Text.encodeUtf8 (Checkpoint.encode writtenAt snapshot))) := by
  obtain ⟨next, ok, holds⟩ := holds_of_steps plain short stands free temporaryFree
    (Text.encodeUtf8 (Checkpoint.encode writtenAt snapshot))
  have directories : (FileStep.makeDirectories (parent keeper.path)).run tree = (made, none) :=
    makes
  have all := FileStep.runAll_of_ok directories [.truncate keeper.temporaryPath,
    .append keeper.temporaryPath (Text.encodeUtf8 (Checkpoint.encode writtenAt snapshot)),
    .rename keeper.temporaryPath keeper.path]
  exact ⟨next, keeper.write_eq tree writtenAt snapshot (all.trans ok), holds⟩

namespace Holds

/-- Where the directory stands nothing else is in the way of a write. -/
theorem write (holds : keeper.Holds tree place slot) (plain : IsPlain keeper.name)
    (short : keeper.temporaryName.utf8ByteSize ≤ maximumName) (writtenAt : Timestamp)
    (snapshot : Snapshot) :
    ∃ next, keeper.write tree writtenAt snapshot = (next, .ok ()) ∧
      keeper.Holds next place
        (some (Text.encodeUtf8 (Checkpoint.encode writtenAt snapshot))) := by
  have stands : tree.isDirectory (parent keeper.path) = true := by
    rw [parent_path plain]
    exact isDirectory_iff.2 ⟨place, holds.stands.withoutBlanks⟩
  have free : tree.lookup (place ++ [keeper.name]) ≠ some .directory := by
    rw [holds.checkpoint]
    cases slot <;> simp
  have temporaryFree : tree.lookup (place ++ [keeper.temporaryName]) ≠ some .directory := by
    simp [holds.temporary]
  exact holds_of_write plain short (makeDirectories_of_isDirectory stands) holds.stands free
    temporaryFree writtenAt snapshot

theorem read_path (holds : keeper.Holds tree place slot) (plain : IsPlain keeper.name)
    (short : keeper.temporaryName.utf8ByteSize ≤ maximumName) :
    tree.read keeper.path = content (slot.map .file) := by
  obtain ⟨named, -⟩ := isName_of_short plain short
  rw [path_eq plain, holds.stands.read_plain plain, if_neg (Nat.not_lt.2 named.short),
    holds.checkpoint]

theorem read_temporaryPath (holds : keeper.Holds tree place slot) (plain : IsPlain keeper.name)
    (short : keeper.temporaryName.utf8ByteSize ≤ maximumName) :
    tree.read keeper.temporaryPath = .error .notFound := by
  rw [temporaryPath_eq plain, holds.stands.read_plain (plain_temporaryName plain),
    if_neg (Nat.not_lt.2 short), holds.temporary]
  rfl

theorem clear (holds : keeper.Holds tree place slot) (plain : IsPlain keeper.name)
    (short : keeper.temporaryName.utf8ByteSize ≤ maximumName) :
    ∃ next, keeper.clear tree = (next, .ok ()) ∧ keeper.Holds next place none := by
  have temporary := removeFile_of_read (holds.read_temporaryPath plain short)
  cases slot with
  | none =>
    have checkpoint := removeFile_of_read (holds.read_path plain short)
    refine ⟨tree, ?_, holds⟩
    rw [FileKeeper.clear, removeAll, checkpoint, removeAll, temporary]
    rfl
  | some bytes =>
    obtain ⟨named, -⟩ := isName_of_short plain short
    have located := holds.stands.locate_name named
    rw [← path_eq plain] at located
    have checkpoint := removeFile_eq located holds.checkpoint
    have left : keeper.Holds (tree.drop (place ++ [keeper.name])) place none := by
      refine ⟨holds.stands.mono (keepsDirectories_drop holds.checkpoint), ?_, ?_⟩
      · exact lookup_drop_self (List.concat_ne_nil _ _)
      · rw [lookup_drop_of_ne (keeper.sibling_ne place).symm, holds.temporary]
    have temporary := removeFile_of_read (left.read_temporaryPath plain short)
    refine ⟨_, ?_, left⟩
    rw [FileKeeper.clear, removeAll, checkpoint]
    dsimp only
    rw [removeAll, temporary]
    rfl

end Holds

theorem ne_directory_of_isDirectory {name : String} (stands : tree.Stands keeper.directory place)
    (named : IsName name) (other : tree.isDirectory (keeper.directory ++ [name]) = false) :
    tree.lookup (place ++ [name]) ≠ some .directory := by
  intro directory
  have there : tree.isDirectory (keeper.directory ++ [name]) = true :=
    isDirectory_iff.2 ⟨_, stands.locate_name named, directory⟩
  cases other.symm.trans there

/-- The first write makes the directory. -/
theorem IsReady.write (ready : keeper.IsReady tree) (writtenAt : Timestamp) (snapshot : Snapshot) :
    ∃ next place, keeper.write tree writtenAt snapshot = (next, .ok ()) ∧
      keeper.Holds next place
        (some (Text.encodeUtf8 (Checkpoint.encode writtenAt snapshot))) := by
  obtain ⟨plain, short, makes, -, -, free, temporaryFree⟩ := ready
  obtain ⟨named, temporaryNamed⟩ := isName_of_short plain short
  obtain ⟨place, stands⟩ := isDirectory_iff.1 (isDirectory_makeDirectories makes)
  cases made : tree.makeDirectories (parent keeper.path) with
  | mk left problem =>
    rw [made] at makes stands free temporaryFree
    cases makes
    rw [parent_path plain] at stands
    rw [path_eq plain] at free
    rw [temporaryPath_eq plain] at temporaryFree
    have inside := stands.withBlanks
    obtain ⟨next, written, holds⟩ := holds_of_write plain short made inside
      (ne_directory_of_isDirectory inside named free)
      (ne_directory_of_isDirectory inside temporaryNamed temporaryFree) writtenAt snapshot
    exact ⟨next, place, written, holds⟩

theorem IsReady.clear (ready : keeper.IsReady tree) : keeper.clear tree = (tree, .ok ()) := by
  rw [FileKeeper.clear, removeAll, removeFile_of_read ready.empty, removeAll,
    removeFile_of_read ready.clean]
  rfl

/-- What a keeper has of its directory: all is as at the start and nothing is kept, or what is kept
is in the file of the checkpoint. -/
inductive Tracks (keeper : FileKeeper) (start : FileTree) : FileTree → Option Snapshot → Prop
  | untouched : Tracks keeper start start none
  | holds {tree : FileTree} {place : List String} {slot : Option (List UInt8)}
      {kept : Option Snapshot} :
      keeper.Holds tree place slot → Snapshot.IsIn kept slot → Tracks keeper start tree kept

namespace Tracks

variable {start : FileTree} {kept : Option Snapshot}

theorem write (tracks : keeper.Tracks start tree kept) (ready : keeper.IsReady start)
    {snapshot : Snapshot} (plainStore : snapshot.store.Plain)
    (shallow : snapshot.toValue.depth ≤ maximumDepth) {writtenAt : Timestamp}
    (valid : writtenAt.Valid) :
    ∃ next, keeper.write tree writtenAt snapshot = (next, .ok ()) ∧
      keeper.Tracks start next (some snapshot) := by
  have isIn := Snapshot.isIn_encode plainStore shallow valid
  cases tracks with
  | untouched =>
    obtain ⟨next, place, written, holds⟩ := ready.write writtenAt snapshot
    exact ⟨next, written, .holds holds isIn⟩
  | holds holds _ =>
    obtain ⟨next, written, holds⟩ := holds.write ready.plain ready.short writtenAt snapshot
    exact ⟨next, written, .holds holds isIn⟩

theorem clear (tracks : keeper.Tracks start tree kept) (ready : keeper.IsReady start) :
    ∃ next, keeper.clear tree = (next, .ok ()) ∧ keeper.Tracks start next none := by
  cases tracks with
  | untouched => exact ⟨_, ready.clear, .untouched⟩
  | holds holds _ =>
    obtain ⟨next, cleared, holds⟩ := holds.clear ready.plain ready.short
    exact ⟨next, cleared, .holds holds .nothing⟩

theorem read (tracks : keeper.Tracks start tree kept) (ready : keeper.IsReady start)
    (location : String) :
    (keeper.read tree location).map some = KeeperAnswer.ofKept location kept := by
  rw [FileKeeper.read]
  cases tracks with
  | untouched =>
    rw [ready.empty]
    rfl
  | holds holds isIn =>
    rw [holds.read_path ready.plain ready.short]
    cases isIn with
    | nothing => rfl
    | bytes decoded =>
      change (Checkpoint.decodeBytes _).map some = _
      rw [decoded]
      rfl

theorem read_temporaryPath (tracks : keeper.Tracks start tree kept)
    (ready : keeper.IsReady start) : tree.read keeper.temporaryPath = .error .notFound := by
  cases tracks with
  | untouched => exact ready.clean
  | holds holds _ => exact holds.read_temporaryPath ready.plain ready.short

theorem exists?_eq (tracks : keeper.Tracks start tree kept) (ready : keeper.IsReady start) :
    keeper.exists? tree = kept.isSome := by
  rw [exists?, isFile_eq_isOk_read]
  cases tracks with
  | untouched =>
    rw [ready.empty]
    rfl
  | holds holds isIn =>
    rw [holds.read_path ready.plain ready.short]
    cases isIn <;> rfl

/-- A file answers a call as the snapshot that is kept calls for. -/
theorem answer_eq (tracks : keeper.Tracks start tree kept) (ready : keeper.IsReady start)
    (location : String) {call : KeeperCall} (fits : call.Fits) :
    (keeper.answer location tree call).1 = (call.answer location kept).1 ∧
      keeper.Tracks start (keeper.answer location tree call).2 (call.answer location kept).2 := by
  cases call with
  | write snapshot filedAt slottedAt =>
    obtain ⟨plainStore, shallow, valid, -⟩ := fits
    obtain ⟨next, written, tracks⟩ := tracks.write ready plainStore shallow valid
    rw [FileKeeper.answer, written]
    exact ⟨rfl, tracks⟩
  | read => exact ⟨tracks.read ready location, tracks⟩
  | clear =>
    obtain ⟨next, cleared, tracks⟩ := tracks.clear ready
    rw [FileKeeper.answer, cleared]
    exact ⟨rfl, tracks⟩

end Tracks

end FileKeeper

/-- A file whose directory can be made and is left alone, and a slot, both empty at first, answer
any calls alike, up to the place that is named where there is no checkpoint: what can be written is
written, and what is read is the snapshot that was written last and not cleared since.  Then the
slot is empty exactly if there is no file, and there is no temporary file. -/
theorem slot_stands_in_for_file {keeper : FileKeeper} {tree : FileTree}
    (ready : keeper.IsReady tree) (location : String) {calls : List KeeperCall}
    (fits : ∀ call ∈ calls, call.Fits) :
    let file := KeeperCall.serve (keeper.answer location) tree calls
    let slot := KeeperCall.serve SlotKeeper.answer .empty calls
    slot.1 = file.1.map (KeeperAnswer.relocate SlotKeeper.location) ∧
      file.1 = (KeeperCall.serve (KeeperCall.answer location) none calls).1 ∧
      slot.2.isEmpty = !keeper.exists? file.2 ∧
      file.2.read keeper.temporaryPath = .error .notFound := by
  intro file slot
  obtain ⟨fileAnswers, tracks⟩ := KeeperCall.serve_eq_of_related (keeper.answer location)
    (KeeperCall.answer location) id (keeper.Tracks tree)
    (fun tracks fits => tracks.answer_eq ready location fits) .untouched fits
  have bare : Snapshot.IsIn none SlotKeeper.empty.slot := .nothing
  obtain ⟨slotAnswers, isIn⟩ := KeeperCall.serve_eq_of_related SlotKeeper.answer
    (KeeperCall.answer SlotKeeper.location) id (fun slot kept => Snapshot.IsIn kept slot.slot)
    (fun isIn fits => SlotKeeper.answer_eq isIn fits) bare fits
  obtain ⟨relocated, same⟩ :=
    KeeperCall.relocate_serve location SlotKeeper.location none fits
  rw [List.map_id] at fileAnswers slotAnswers
  refine ⟨?_, fileAnswers, ?_, tracks.read_temporaryPath ready⟩
  · rw [fileAnswers, relocated, slotAnswers]
  · rw [tracks.exists?_eq ready, same, isIn.isSome_eq]
    exact (Option.not_isSome _).symm

/-- A checkpoint is looked for, written, read, cleared and looked for again. -/
theorem slot_stands_in_for_archive :
    let moment : Timestamp := ⟨⟨2024, 2, 29⟩, 12, 0, 0, 0⟩
    let later : Timestamp := ⟨⟨2024, 2, 29⟩, 12, 0, 1, 0⟩
    let calls : List KeeperCall := [.read, .write .single moment later, .read, .clear, .read]
    let file := KeeperCall.serve (FileKeeper.archived.answer "job") .empty calls
    let slot := KeeperCall.serve SlotKeeper.answer .empty calls
    file.1 = [.error (.noCheckpoint "job"), .ok none, .ok (some .single), .ok none,
        .error (.noCheckpoint "job")] ∧
      slot.1 = [.error (.noCheckpoint "<memory>"), .ok none, .ok (some .single), .ok none,
        .error (.noCheckpoint "<memory>")] ∧
      slot.2.isEmpty = !FileKeeper.archived.exists? file.2 := by
  intro moment later calls file slot
  have plain : IsPlain FileKeeper.archived.name :=
    ⟨by decide, by decide, by decide, by decide, by decide⟩
  have ready : FileKeeper.archived.IsReady .empty :=
    ⟨plain, by decide +kernel, by decide +kernel, by decide +kernel, by decide +kernel,
      by decide +kernel, by decide +kernel⟩
  have valid : moment.Valid ∧ later.Valid :=
    ⟨⟨⟨by decide, by decide, by decide⟩, by decide, by decide, by decide⟩,
      ⟨⟨by decide, by decide, by decide⟩, by decide, by decide, by decide⟩⟩
  have written : (KeeperCall.write .single moment later).Fits :=
    ⟨fun entry listed => (by cases listed), by decide, valid.1, valid.2⟩
  have fits : ∀ call ∈ calls, call.Fits := by
    intro call mem
    simp only [calls, List.mem_cons, List.not_mem_nil, or_false] at mem
    rcases mem with rfl | rfl | rfl | rfl | rfl
    · trivial
    · exact written
    · trivial
    · trivial
    · trivial
  obtain ⟨same, answers, empty, -⟩ := slot_stands_in_for_file ready "job" fits
  refine ⟨answers, ?_, empty⟩
  change slot.1 = _ at same
  rw [same, answers]
  rfl

end JobGraph
