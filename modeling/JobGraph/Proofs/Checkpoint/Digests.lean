import JobGraph.Proofs.Checkpoint.Codec

/-!
# Checkpoints and their digests

A checkpoint is read back as the snapshot that was saved, whatever the states and the store hold and
whenever it was written.  The digest that stands in it is that of the very characters that the
reader cuts out as the text of the snapshot (`checkpoints_read_back_by_digest`).
-/

namespace JobGraph

open Json (Value maximumDepth)

/-! ## Texts that stand as they are -/

namespace Json

/-- A string without characters to escape stands in quotation marks as it is. -/
theorem writeString_of_unescaped {text : String} (unescaped : ∀ c ∈ text.toList, escapeChar c = [c])
    (rest : List Char) : writeString text rest = '"' :: (text.toList ++ '"' :: rest) := by
  rw [writeString_eq, quotedEnd]
  congr 1
  generalize text.toList = characters at unescaped
  induction characters with
  | nil => rfl
  | cons c others inductionHypothesis =>
    obtain ⟨first, later⟩ := List.forall_mem_cons.1 unescaped
    rw [List.foldr_cons, first, inductionHypothesis later]
    rfl

theorem unescaped_of_all {text : String}
    (all : (text.toList.all fun c => escapeChar c == [c]) = true) :
    ∀ c ∈ text.toList, escapeChar c = [c] := by
  intro c mem
  exact eq_of_beq (List.all_eq_true.1 all c mem)

theorem suffix_writeString (text : String) (rest : List Char) : rest <:+ writeString text rest := by
  have split := quotedEnd_append text [] rest
  rw [List.nil_append] at split
  rw [writeString_eq, split]
  exact (List.suffix_append ..).trans (List.suffix_cons ..)

end Json

namespace Blake3

theorem escapeChar_of_mem_byteHex {byte : UInt8} {c : Char} (mem : c ∈ byteHex byte) :
    Json.escapeChar c = [c] := by
  have digits : ∀ n < 16, Json.escapeChar (Nat.digitChar n) = [Nat.digitChar n] := by decide
  have small : byte.toNat < 256 := byte.toNat_lt
  rcases List.mem_pair.1 mem with rfl | rfl
  · exact digits _ (by omega)
  · exact digits _ (by omega)

/-- A digest in hexadecimal digits has nothing to escape. -/
theorem escapeChar_of_mem_hexDigest {text : String} {c : Char}
    (mem : c ∈ (hexDigest text).toList) : Json.escapeChar c = [c] := by
  rw [hexDigest, String.toList_ofList] at mem
  obtain ⟨byte, -, digit⟩ := List.mem_flatMap.1 mem
  exact escapeChar_of_mem_byteHex digit

end Blake3

/-! ## The end of a checkpoint -/

namespace Checkpoint

/-- The last two lines of an envelope, with a digest and the text of a snapshot, and its closing
brace. -/
def ending (digest : String) (snapshot : List Char) : List Char :=
  "\n  \"digest\": \"".toList ++ digest.toList ++ "\",\n  \"snapshot\": ".toList ++
    snapshot ++ "\n\x7d".toList

theorem suffix_envelopeLine (name : String) (value rest : List Char) :
    rest <:+ envelopeLine name value rest := by
  have line : ':' :: ' ' :: (value ++ rest) <:+
      Json.writeString name (':' :: ' ' :: (value ++ rest)) := Json.suffix_writeString ..
  have start : rest <:+ ':' :: ' ' :: (value ++ rest) :=
    List.suffix_append (':' :: ' ' :: value) rest
  exact (start.trans line).trans (List.suffix_append ['\n', ' ', ' '] _)

theorem ending_eq {digest : String} (unescaped : ∀ c ∈ digest.toList, Json.escapeChar c = [c])
    (snapshot : List Char) :
    ending digest snapshot =
      envelopeLine "digest" (Json.writeString digest [])
        (',' :: envelopeLine "snapshot" snapshot ['\n', '}']) := by
  have first : ∀ c ∈ "digest".toList, Json.escapeChar c = [c] :=
    Json.unescaped_of_all (by decide)
  have second : ∀ c ∈ "snapshot".toList, Json.escapeChar c = [c] :=
    Json.unescaped_of_all (by decide)
  unfold envelopeLine ending
  rw [Json.writeString_of_unescaped unescaped, Json.writeString_of_unescaped first,
    Json.writeString_of_unescaped second]
  simp only [List.append_assoc, List.cons_append, List.nil_append]
  rfl

theorem ending_suffix_envelope (writtenAt : Timestamp) (snapshot : String) :
    ending (Blake3.hexDigest snapshot) snapshot.toList <:+ envelope writtenAt snapshot := by
  have unescaped : ∀ c ∈ (Blake3.hexDigest snapshot).toList, Json.escapeChar c = [c] :=
    fun c mem => Blake3.escapeChar_of_mem_hexDigest mem
  rw [ending_eq unescaped, envelope]
  -- The lines before it are those of the format, the version and the time.
  refine List.IsSuffix.trans ?_ (List.suffix_cons ..)
  refine List.IsSuffix.trans ?_ (suffix_envelopeLine ..)
  refine List.IsSuffix.trans ?_ (List.suffix_cons ..)
  refine List.IsSuffix.trans ?_ (suffix_envelopeLine ..)
  refine List.IsSuffix.trans ?_ (List.suffix_cons ..)
  refine List.IsSuffix.trans ?_ (suffix_envelopeLine ..)
  exact List.suffix_cons ..

end Checkpoint

/-- A checkpoint is read back as the snapshot that was saved, and its last lines hold a text and a
digest such that the reader takes this very text for the snapshot and the digest is that of its
bytes. -/
theorem checkpoints_read_back_by_digest {snapshot : Snapshot} (plain : snapshot.store.Plain)
    (shallow : snapshot.toValue.depth ≤ maximumDepth) {writtenAt : Timestamp}
    (valid : writtenAt.Valid) :
    Checkpoint.decodeBytes (Text.encodeUtf8 (Checkpoint.encode writtenAt snapshot)) =
        .ok snapshot ∧
      ∃ envelope, Checkpoint.readEnvelope? (Checkpoint.encode writtenAt snapshot).toList =
          some envelope ∧
        Checkpoint.ending envelope.digest envelope.snapshot <:+
          (Checkpoint.encode writtenAt snapshot).toList ∧
        envelope.digest = Blake3.hexDigest (String.ofList envelope.snapshot) := by
  have text : snapshot.text.toList = snapshot.toValue.write [] := String.toList_ofList
  constructor
  · rw [Checkpoint.decodeBytes_encodeUtf8, Checkpoint.decode_encode valid plain, if_pos shallow]
  · refine ⟨⟨Checkpoint.format, Checkpoint.version, Blake3.hexDigest snapshot.text,
      snapshot.text.toList⟩, ?_, ?_, by rw [String.ofList_toList]⟩
    · rw [Checkpoint.encode, String.toList_ofList, Checkpoint.readEnvelope?_envelope valid plain,
        text]
    · rw [Checkpoint.encode, String.toList_ofList]
      exact Checkpoint.ending_suffix_envelope writtenAt snapshot.text

/-- A snapshot in which one task stands in two states and most states have no set. -/
def Snapshot.awkward : Snapshot where
  states := (StateMap.bare.set .completed (.ofList ["a\nb", "\""])).set .failed (.ofList ["\""])
  store := KeyMap.empty.insert "\x00" .awkward

theorem awkward_snapshot_reads_back :
    Checkpoint.decodeBytes (Text.encodeUtf8 (Checkpoint.encode
        ⟨⟨-262143, 12, 31⟩, 23, 59, 60, 1⟩ .awkward)) = .ok .awkward ∧
      ∃ envelope, Checkpoint.readEnvelope? (Checkpoint.encode
          ⟨⟨-262143, 12, 31⟩, 23, 59, 60, 1⟩ .awkward).toList = some envelope ∧
        Checkpoint.ending envelope.digest envelope.snapshot <:+
          (Checkpoint.encode ⟨⟨-262143, 12, 31⟩, 23, 59, 60, 1⟩ .awkward).toList ∧
        envelope.digest = Blake3.hexDigest (String.ofList envelope.snapshot) := by
  refine checkpoints_read_back_by_digest ?_ (by decide)
    ⟨⟨by decide, by decide, by decide⟩, by decide, by decide, by decide⟩
  intro entry listed
  rw [List.mem_singleton.1 listed]
  exact Value.plain_awkward

end JobGraph
