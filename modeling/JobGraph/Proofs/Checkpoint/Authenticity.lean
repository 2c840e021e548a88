import JobGraph.Proofs.Checkpoint.Codec
import JobGraph.Proofs.Json.Parts

/-!
# No checkpoint is misread

The fields of an envelope are the members or items of the tree that its text is read as, in whatever
order and among whatever else they stand, and the snapshot is the text of its field as it stands
there (`Checkpoint.Encloses`).  That text is what the digest is compared with, and what is parsed.
So an envelope with the digest of a snapshot holds the text of that snapshot, and is read as it,
unless two different texts have the same digest.
-/

namespace JobGraph

open Json (Value Tree maximumDepth)

/-! ## Digests -/

namespace Blake3

theorem byteHex_injective : Function.Injective byteHex := by
  have digits : ∀ m < 16, ∀ n < 16, Nat.digitChar m = Nat.digitChar n → m = n := by decide
  intro first second same
  have firstSmall : first.toNat < 256 := first.toNat_lt
  have secondSmall : second.toNat < 256 := second.toNat_lt
  obtain ⟨high, rest⟩ := List.cons.inj same
  have low := (List.cons.inj rest).1
  have highs := digits _ (by omega) _ (by omega) high
  have lows := digits _ (by omega) _ (by omega) low
  exact UInt8.toNat_inj.1 (by omega)

theorem flatMap_byteHex_injective : Function.Injective (List.flatMap byteHex) := by
  intro first
  induction first with
  | nil =>
    intro second same
    cases second with
    | nil => rfl
    | cons byte bytes => cases same
  | cons byte bytes inductionHypothesis =>
    intro second same
    cases second with
    | nil => cases same
    | cons other others =>
      obtain ⟨here, later⟩ := List.append_inj same rfl
      rw [byteHex_injective here, inductionHypothesis later]

/-- The digits of a digest tell its bytes. -/
theorem digest_eq_of_hexDigest_eq {first second : String}
    (same : hexDigest first = hexDigest second) :
    digest (Text.encodeUtf8 first) = digest (Text.encodeUtf8 second) :=
  flatMap_byteHex_injective (String.ofList_injective same)

end Blake3

/-! ## What stands in an envelope -/

namespace Checkpoint

/-- A field of an envelope: the value of the only member with its name, or the item at its place. -/
inductive HasField (name : String) (part : Tree) : Tree → Prop
  | member {members : List (Option String × Tree)} (once : Tree.valuesOf name members = [part]) :
      HasField name part (.obj members)
  | item {items : List Tree} {place : Nat} (named : fieldNames[place]? = some name)
      (there : items[place]? = some part) : HasField name part (.arr items)

/-- The parts of an envelope are the fields of the tree that a text is read as, and the snapshot is
the text of its field. -/
structure Encloses (text : List Char) (tree : Tree) (envelope : Envelope) : Prop where
  read : Tree.read? text = some tree
  format : HasField "format" (.str (some envelope.format)) tree
  version : ∃ numeral, HasField "version" (.number numeral) tree ∧
    numeral.value? = some (.int envelope.version)
  writtenAt : ∃ moment, HasField "written_at" (.str (some moment)) tree ∧
    Timestamp.isTimestamp moment.toList = true
  digest : HasField "digest" (.str (some envelope.digest)) tree
  snapshot : ∃ part, HasField "snapshot" part tree ∧ Tree.read? envelope.snapshot = some part
  within : envelope.snapshot <:+: text

theorem forall₂_valuesOf {parts : List (Option String × List Char)}
    {members : List (Option String × Tree)} (spelled : List.Forall₂ Json.Spells parts members)
    (name : String) :
    List.Forall₂ (fun raw part => Tree.read? raw = some part) (Tree.valuesOf name parts)
      (Tree.valuesOf name members) := by
  induction spelled with
  | nil => exact .nil
  | @cons part member parts members same _ inductionHypothesis =>
    obtain ⟨key, raw⟩ := part
    obtain ⟨_, tree⟩ := member
    obtain ⟨rfl, read⟩ := same
    by_cases named : key = some name
    · simpa [Tree.valuesOf, named] using ⟨read, inductionHypothesis⟩
    · simpa [Tree.valuesOf, named] using inductionHypothesis

/-- The text of each field is that of a field of the tree that the whole text is read as. -/
theorem exists_hasField {text : List Char} {fields : List (Option (List Char))}
    (found : envelopeFields? text = some fields) :
    ∃ tree, Tree.read? text = some tree ∧
      ∀ (place : Nat) {name : String} {raw : List Char}, fieldNames[place]? = some name →
        fields[place]? = some (some raw) →
          raw <:+: text ∧ ∃ part, HasField name part tree ∧ Tree.read? raw = some part := by
  unfold envelopeFields? at found
  split at found
  case h_1 parts split =>
    obtain ⟨inside, members, read, spelled⟩ := Json.read?_of_splitMembers? split
    have gathers := Tree.gathers_of_fieldsOfMembers? (by decide) found
    refine ⟨_, read, fun place name raw named there => ?_⟩
    obtain ⟨nameBound, rfl⟩ := List.getElem?_eq_some_iff.1 named
    obtain ⟨fieldBound, held⟩ := List.getElem?_eq_some_iff.1 there
    have only : [raw] = Tree.valuesOf fieldNames[place] parts := by
      have field := gathers.get nameBound fieldBound
      rwa [List.get_eq_getElem, List.get_eq_getElem, held] at field
    have values := forall₂_valuesOf spelled fieldNames[place]
    rw [← only] at values
    obtain ⟨part, _, partRead, none, single⟩ := List.forall₂_cons_left_iff.1 values
    rw [List.forall₂_nil_left_iff.1 none] at single
    have listed : (some fieldNames[place], raw) ∈ parts :=
      Tree.mem_of_mem_valuesOf (only ▸ List.mem_singleton_self raw)
    exact ⟨inside _ listed, part, .member single, partRead⟩
  case h_2 =>
    split at found
    case h_2 => cases found
    case h_1 parts split =>
      obtain ⟨inside, items, read, parsed⟩ := Json.read?_of_splitItems? split
      refine ⟨_, read, fun place name raw named there => ?_⟩
      have part := Tree.getElem?_of_fieldsOfItems? found there
      obtain ⟨bound, rfl⟩ := List.getElem?_eq_some_iff.1 part
      have itemBound : place < items.length := parsed.length_eq ▸ bound
      exact ⟨inside _ (List.getElem_mem bound), items[place],
        .item named (List.getElem?_eq_getElem itemBound), parsed.get bound itemBound⟩

/-- What is made of the text of a field is made of the field. -/
theorem HasField.of_bind {α : Type} {name : String} {part tree : Tree} {raw : List Char}
    {decode : Tree → Option α} {result : α} (field : HasField name part tree)
    (read : Tree.read? raw = some part) (made : (Tree.read? raw).bind decode = some result) :
    ∃ part, HasField name part tree ∧ decode part = some result :=
  ⟨part, field, by rwa [read, Option.bind_some] at made⟩

theorem text?_eq_some {tree : Tree} {text : String} (found : tree.text? = some text) :
    tree = .str (some text) := by
  cases tree with
  | str _ => exact congrArg Tree.str found
  | _ => cases found

theorem natBelow?_eq_some {bound n : Nat} {tree : Tree} (found : tree.natBelow? bound = some n) :
    ∃ numeral, tree = .number numeral ∧ numeral.value? = some (.int n) := by
  cases tree with
  | number numeral =>
    rw [Tree.natBelow?] at found
    split at found
    case h_1 value known =>
      split_ifs at found with small
      cases found
      exact ⟨numeral, rfl, by rw [known, Int.toNat_of_nonneg small.1]⟩
    case h_2 => cases found
  | _ => cases found

theorem encloses_of_readEnvelope? {text : List Char} {envelope : Envelope}
    (found : readEnvelope? text = some envelope) : ∃ tree, Encloses text tree envelope := by
  obtain ⟨fields, split, found⟩ := Option.bind_eq_some_iff.1 found
  obtain ⟨tree, read, parts⟩ := exists_hasField split
  split at found
  case h_2 => cases found
  case h_1 format version writtenAt digest snapshot =>
    obtain ⟨moment, momentMade, found⟩ := Option.bind_eq_some_iff.1 found
    split_ifs at found with valid
    obtain ⟨formatText, formatMade, found⟩ := Option.bind_eq_some_iff.1 found
    obtain ⟨number, versionMade, found⟩ := Option.bind_eq_some_iff.1 found
    obtain ⟨digestText, digestMade, found⟩ := Option.bind_eq_some_iff.1 found
    cases found
    obtain ⟨-, _, formatField, formatRead⟩ := parts 0 rfl rfl
    obtain ⟨-, _, versionField, versionRead⟩ := parts 1 rfl rfl
    obtain ⟨-, _, momentField, momentRead⟩ := parts 2 rfl rfl
    obtain ⟨-, _, digestField, digestRead⟩ := parts 3 rfl rfl
    obtain ⟨within, part, snapshotField, snapshotRead⟩ := parts 4 rfl rfl
    obtain ⟨_, formatField, isFormat⟩ := formatField.of_bind formatRead formatMade
    obtain ⟨_, versionField, isVersion⟩ := versionField.of_bind versionRead versionMade
    obtain ⟨_, momentField, isMoment⟩ := momentField.of_bind momentRead momentMade
    obtain ⟨_, digestField, isDigest⟩ := digestField.of_bind digestRead digestMade
    obtain ⟨numeral, rfl, value⟩ := natBelow?_eq_some isVersion
    exact ⟨tree, {
      read
      format := text?_eq_some isFormat ▸ formatField
      version := ⟨numeral, versionField, value⟩
      writtenAt := ⟨moment, text?_eq_some isMoment ▸ momentField, valid⟩
      digest := text?_eq_some isDigest ▸ digestField
      snapshot := ⟨part, snapshotField, snapshotRead⟩
      within }⟩

/-- What is decoded is the snapshot in an envelope whose digest fits. -/
theorem exists_envelope_of_decode {text : String} {found : Snapshot}
    (decoded : decode text = .ok found) :
    ∃ envelope, readEnvelope? text.toList = some envelope ∧ envelope.format = format ∧
      envelope.version = version ∧
      Blake3.hexDigest (String.ofList envelope.snapshot) = envelope.digest ∧
      Snapshot.ofText? envelope.snapshot = some found := by
  unfold decode at decoded
  split at decoded
  case h_1 => cases decoded
  case h_2 envelope enclosed =>
    split_ifs at decoded with otherFormat otherVersion otherDigest
    split at decoded
    case h_1 snapshot read =>
      cases decoded
      exact ⟨envelope, enclosed, not_not.1 otherFormat, not_not.1 otherVersion,
        not_not.1 otherDigest, read⟩
    case h_2 => cases decoded

/-- A checkpoint that is decoded has an envelope of this format and version around the very text
that is compared with its digest and parsed.  If the digest is the one that is written for a
snapshot, what is decoded is that snapshot, unless the text of the checkpoint and the text of the
snapshot are different texts with the same hash. -/
theorem checkpoints_are_not_misread {bytes : List UInt8} {found : Snapshot}
    (decoded : decodeBytes bytes = .ok found) :
    ∃ text tree envelope, textOf? bytes = some text ∧
      readEnvelope? text.toList = some envelope ∧ Encloses text.toList tree envelope ∧
      envelope.format = format ∧ envelope.version = version ∧
      Blake3.hexDigest (String.ofList envelope.snapshot) = envelope.digest ∧
      Snapshot.ofText? envelope.snapshot = some found ∧
      ∀ {snapshot writtenAt written}, snapshot.store.Plain →
        snapshot.toValue.depth ≤ maximumDepth → writtenAt.Valid →
        readEnvelope? (encode writtenAt snapshot).toList = some written →
        envelope.digest = written.digest →
          found = snapshot ∨
            (String.ofList envelope.snapshot ≠ snapshot.text ∧
              Blake3.digest (Text.encodeUtf8 (String.ofList envelope.snapshot)) =
                Blake3.digest (Text.encodeUtf8 snapshot.text)) := by
  unfold decodeBytes at decoded
  split at decoded
  case h_2 => cases decoded
  case h_1 text isText =>
    obtain ⟨envelope, enclosed, isFormat, isVersion, fits, parsed⟩ :=
      exists_envelope_of_decode decoded
    obtain ⟨tree, encloses⟩ := encloses_of_readEnvelope? enclosed
    refine ⟨text, tree, envelope, isText, enclosed, encloses, isFormat, isVersion, fits, parsed, ?_⟩
    intro snapshot writtenAt written plain shallow valid writes same
    rw [encode, String.toList_ofList, readEnvelope?_envelope valid plain] at writes
    cases writes
    by_cases sameText : String.ofList envelope.snapshot = snapshot.text
    · left
      have raw : envelope.snapshot = snapshot.toValue.write [] := String.ofList_injective sameText
      rw [raw, Snapshot.ofText?_text plain, if_pos shallow] at parsed
      exact (Option.some_inj.1 parsed).symm
    · exact .inr ⟨sameText, Blake3.digest_eq_of_hexDigest_eq (fits.trans same)⟩

/-- The members of an envelope around a snapshot without tasks, in another order and with a member
of another name. -/
def editedMembers : List (String × Value) :=
  [("note", .arr [.str "digest", .null]), ("snapshot", (Snapshot.mk .bare .empty).toValue),
    ("digest", .str (Blake3.hexDigest (Snapshot.mk .bare .empty).text)),
    ("written_at", .str "2026-01-31T23:59:60Z"), ("version", .int version),
    ("format", .str format)]

theorem edited_checkpoint_is_not_misread :
    ∃ found text tree envelope,
      decodeBytes (Text.encodeUtf8 (String.ofList ('{' :: envelopeLines editedMembers))) =
        .ok found ∧
      textOf? (Text.encodeUtf8 (String.ofList ('{' :: envelopeLines editedMembers))) = some text ∧
      Encloses text.toList tree envelope ∧ found = ⟨.bare, .empty⟩ := by
  have plain : (Snapshot.mk .bare .empty).store.Plain := fun entry listed => by cases listed
  have shallow : (Snapshot.mk .bare .empty).toValue.depth ≤ maximumDepth := by decide
  have held : Value.HeldMembers editedMembers :=
    ⟨⟨trivial, trivial, trivial⟩, Snapshot.held_toValue plain, trivial, trivial,
      ⟨by decide, by decide⟩, trivial, trivial⟩
  have read : readEnvelope? ('{' :: envelopeLines editedMembers) =
      some ⟨format, version, Blake3.hexDigest (Snapshot.mk .bare .empty).text,
        (Snapshot.mk .bare .empty).toValue.write []⟩ := by
    refine readEnvelope?_of_fields ?_ (by decide : Timestamp.isTimestamp
      "2026-01-31T23:59:60Z".toList = true)
    rw [envelopeFields?, splitMembers?_envelope (by simp [editedMembers]) held]
    rfl
  have decoded : decodeBytes (Text.encodeUtf8 (String.ofList
      ('{' :: envelopeLines editedMembers))) = .ok ⟨.bare, .empty⟩ := by
    have text : String.ofList ((Snapshot.mk .bare .empty).toValue.write []) =
        (Snapshot.mk .bare .empty).text := rfl
    rw [decodeBytes_encodeUtf8, decode, String.toList_ofList, read]
    simp [text, Snapshot.ofText?_text plain, shallow]
  obtain ⟨text, tree, envelope, isText, enclosed, encloses, -, -, -, -, told⟩ :=
    checkpoints_are_not_misread decoded
  obtain rfl : String.ofList ('{' :: envelopeLines editedMembers) = text :=
    Option.some_inj.1 ((textOf?_encodeUtf8 _).symm.trans isText)
  rw [String.toList_ofList, read] at enclosed
  cases enclosed
  have valid : Timestamp.Valid ⟨⟨2026, 2, 1⟩, 0, 0, 0, 0⟩ :=
    ⟨⟨by decide, by decide, by decide⟩, by decide, by decide, by decide⟩
  have writes := readEnvelope?_envelope valid plain
  rw [← String.toList_ofList (l := envelope _ _)] at writes
  rcases told plain shallow valid writes rfl with same | ⟨otherText, -⟩
  · exact ⟨_, _, tree, _, decoded, isText, encloses, same⟩
  · exact absurd rfl otherText

end Checkpoint

end JobGraph
