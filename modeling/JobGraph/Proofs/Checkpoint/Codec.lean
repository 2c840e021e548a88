import JobGraph.Checkpoint.Snapshot
import JobGraph.Proofs.Calendar.Timestamps
import JobGraph.Proofs.Json.Records
import JobGraph.Proofs.Text.Lines

/-!
# Checkpoints read back

A snapshot with plain values is read from its text exactly if the text nests no deeper than the
reader allows (`Snapshot.ofText?_text`).  The envelope keeps that very text, so the digest fits and
the whole checkpoint is read as the snapshot that was saved, from its text
(`Checkpoint.decode_encode`) and from its bytes.
-/

namespace JobGraph

open Json (Value Tree maximumDepth)

/-! ## State maps -/

namespace StateMap

theorem ext_get? {first second : StateMap} (same : ∀ state, first.get? state = second.get? state) :
    first = second := by
  cases first
  cases second
  have init := same .init
  have pending := same .pending
  have running := same .running
  have completed := same .completed
  have failed := same .failed
  have defaulted := same .defaulted
  have aborted := same .aborted
  have skip := same .skip
  simp_all [get?]

theorem addMember_tree (map : StateMap) (state : TaskState) (names : NameSet) :
    map.addMember (some state.name, (Value.ofNames names.toList).tree) =
      some (map.set state names) := by
  simp [addMember, TaskState.ofName?_name, Tree.list?_tree]

/-- Reading the sets of some states adds them to the sets that are there. -/
private theorem foldlM_addMember (map : StateMap) (states : List TaskState) :
    ∀ known : StateMap, ∃ read : StateMap,
      (Value.treeMembers (states.filterMap fun state =>
        (map.get? state).map fun names => (state.name, Value.ofNames names.toList))).foldlM
          addMember known = some read ∧
        ∀ state, read.get? state =
          if state ∈ states then (map.get? state).or (known.get? state) else known.get? state := by
  induction states with
  | nil => exact fun known => ⟨known, rfl, fun state => by simp⟩
  | cons state rest inductionHypothesis =>
    intro known
    cases found : map.get? state with
    | none =>
      obtain ⟨read, folded, sets⟩ := inductionHypothesis known
      refine ⟨read, ?_, fun other => ?_⟩
      · simpa [found] using folded
      · by_cases same : other = state
        · subst same
          rw [sets]
          simp [found]
        · rw [sets]
          simp [same]
    | some names =>
      obtain ⟨read, folded, sets⟩ := inductionHypothesis (known.set state names)
      refine ⟨read, ?_, fun other => ?_⟩
      · simpa [found, Value.treeMembers, addMember_tree] using folded
      · rw [sets, get?_set]
        by_cases same : other = state
        · subst same
          by_cases later : other ∈ rest <;> simp [found, later]
        · simp [same]

theorem setsOfTree?_tree (map : StateMap) : setsOfTree? map.toValue.tree = some map := by
  obtain ⟨read, folded, sets⟩ := foldlM_addMember map TaskState.all bare
  have same : read = map := ext_get? fun state => by
    have none : bare.get? state = none := by cases state <;> rfl
    rw [sets, if_pos (TaskState.mem_all state), none, Option.or_none]
  rw [← same]
  rw [same] at folded ⊢
  exact folded

theorem ofTree?_tree (map : StateMap) :
    ofTree? (Value.obj [("states", map.toValue)]).tree = some map := by
  have fields := Tree.fields?_tree [("states", map.toValue)] (by simp)
  simp only [List.map_cons, List.map_nil] at fields
  simp [ofTree?, fields, setsOfTree?_tree]

theorem held_toValue (map : StateMap) : map.toValue.Held := by
  refine Value.heldMembers_iff.2 fun member listed => ?_
  obtain ⟨state, -, found⟩ := List.mem_filterMap.1 listed
  obtain ⟨names, -, rfl⟩ := Option.map_eq_some_iff.1 found
  exact Value.held_ofNames names.toList

theorem depth_toValue (map : StateMap) : map.toValue.depth ≤ 2 := by
  refine Nat.succ_le_succ (Value.depthMembers_le_iff.2 fun member listed => ?_)
  obtain ⟨state, -, found⟩ := List.mem_filterMap.1 listed
  obtain ⟨names, -, rfl⟩ := Option.map_eq_some_iff.1 found
  exact (Value.depth_ofNames names.toList).le

end StateMap

/-! ## Snapshots -/

namespace Snapshot

variable {snapshot : Snapshot}

theorem held_toValue (plain : snapshot.store.Plain) : snapshot.toValue.Held :=
  ⟨⟨snapshot.states.held_toValue, trivial⟩, Value.held_ofMap plain, trivial⟩

/-- A snapshot nests two objects around the values of its store, and never fewer than four in all,
for the sets of names. -/
theorem depth_le_iff (snapshot : Snapshot) {room : Nat} (enough : 4 ≤ room) :
    snapshot.toValue.depth ≤ room ↔ Value.depthMembers snapshot.store.entries ≤ room - 2 := by
  have states := snapshot.states.depth_toValue
  have map : (Value.ofMap snapshot.store).depth =
      Value.depthMembers snapshot.store.entries + 1 := rfl
  simp only [toValue, Value.depth, Value.depthMembers, map]
  omega

theorem ofTree?_tree (plain : snapshot.store.Plain) :
    Snapshot.ofTree? snapshot.toValue.tree =
      if snapshot.toValue.depth ≤ maximumDepth then some snapshot else none := by
  have fields := Tree.fields?_tree
    [("states", .obj [("states", snapshot.states.toValue)]),
      ("store", Value.ofMap snapshot.store)] (by simp)
  simp only [List.map_cons, List.map_nil] at fields
  have store := Tree.map?_tree plain (maximumDepth - 2)
  have fits := depth_le_iff snapshot (show 4 ≤ maximumDepth by decide)
  unfold Snapshot.ofTree? Snapshot.toValue
  unfold Snapshot.toValue at fits
  by_cases shallow : Value.depthMembers snapshot.store.entries ≤ maximumDepth - 2
  · rw [if_pos shallow] at store
    simp [fields, StateMap.ofTree?_tree, store, fits, shallow]
  · rw [if_neg shallow] at store
    simp [fields, StateMap.ofTree?_tree, store, fits, shallow]

/-- The text of a snapshot is read as that snapshot exactly if it nests no deeper than the reader
allows. -/
theorem ofText?_text (plain : snapshot.store.Plain) :
    Snapshot.ofText? (snapshot.toValue.write []) =
      if snapshot.toValue.depth ≤ maximumDepth then some snapshot else none := by
  rw [Snapshot.ofText?, Value.read?_write snapshot.toValue (held_toValue plain), Option.bind_some,
    ofTree?_tree plain]

end Snapshot

/-! ## Envelopes -/

namespace Json

theorem skipBlank_blank {c : Char} (blank : isBlank c = true) (rest : List Char) :
    skipBlank (c :: rest) = skipBlank rest := by
  simp [skipBlank, blank]

/-- The text of a value is cut out of what follows it. -/
theorem splitValue?_write {value : Value} (held : value.Held) {rest : List Char}
    (stop : EndsNumber rest) :
    splitValue? (' ' :: (value.write [] ++ rest)) = some (value.write [], rest) := by
  have enough := Value.calls_le_length value rest held
  have text : value.write rest = value.write [] ++ rest := by
    rw [← Value.write_append, List.nil_append]
  have start : skipBlank (' ' :: (value.write [] ++ rest)) = value.write rest := by
    rw [skipBlank_blank rfl, ← text]
    exact Value.skipBlank_eq fun c mem => (Value.head_write held rest c mem).1
  have read := Value.readTree_write value (readingFuel (value.write rest)) rest held
    (by unfold readingFuel; omega) stop
  simp only [splitValue?, start, read, Option.map_some]
  simp [text]

section Members

variable {fuel : Nat} {name : String} {text afterColon value afterValue rest : List Char}

theorem splitMembersFrom_last (start : skipBlank text = '"' :: quotedEnd name (':' :: afterColon))
    (split : splitValue? afterColon = some (value, afterValue))
    (close : skipBlank afterValue = '}' :: rest) :
    splitMembersFrom (fuel + 1) text = some ([(some name, value)], rest) := by
  simp only [splitMembersFrom, start, readString_quotedEnd,
    Value.skipBlank_cons (c := ':') rfl, split, close]

theorem splitMembersFrom_comma (start : skipBlank text = '"' :: quotedEnd name (':' :: afterColon))
    (split : splitValue? afterColon = some (value, afterValue))
    (next : skipBlank afterValue = ',' :: rest) :
    splitMembersFrom (fuel + 1) text = (splitMembersFrom fuel rest).map fun (members, after) =>
      ((some name, value) :: members, after) := by
  simp only [splitMembersFrom, start, readString_quotedEnd,
    Value.skipBlank_cons (c := ':') rfl, split, next]

end Members

end Json

namespace Checkpoint

/-- The lines of an envelope with the given members. -/
def envelopeLines : List (String × Value) → List Char
  | [] => []
  | [(name, value)] => envelopeLine name (value.write []) ['\n', '}']
  | (name, value) :: others => envelopeLine name (value.write []) (',' :: envelopeLines others)

/-- The members of the envelope around a snapshot. -/
def envelopeMembers (writtenAt : Timestamp) (snapshot : Snapshot) : List (String × Value) :=
  [("format", .str format), ("version", .int version),
    ("written_at", .str (String.ofList writtenAt.write)),
    ("digest", .str (Blake3.hexDigest snapshot.text)), ("snapshot", snapshot.toValue)]

theorem envelope_eq (writtenAt : Timestamp) (snapshot : Snapshot) :
    envelope writtenAt snapshot.text =
      '{' :: envelopeLines (envelopeMembers writtenAt snapshot) := by
  have text : snapshot.text.toList = snapshot.toValue.write [] := String.toList_ofList
  rw [envelope, text]
  rfl

theorem skipBlank_envelopeLine (name : String) (value rest : List Char) :
    Json.skipBlank (envelopeLine name value rest) =
      '"' :: Json.quotedEnd name (':' :: ' ' :: (value ++ rest)) := by
  rw [envelopeLine, Json.writeString_eq, Json.skipBlank_blank rfl, Json.skipBlank_blank rfl,
    Json.skipBlank_blank rfl, Value.skipBlank_cons rfl]

/-- Every line of an envelope is cut into its name and the text of its value. -/
theorem splitMembersFrom_envelopeLines : ∀ (members : List (String × Value)) (fuel : Nat)
    (text : List Char), members ≠ [] → Value.HeldMembers members → members.length ≤ fuel →
      Json.skipBlank text = Json.skipBlank (envelopeLines members) →
        Json.splitMembersFrom fuel text =
          some (members.map fun member => (some member.1, member.2.write []), [])
  | [], _, _, some_, _, _, _ => absurd rfl some_
  | [(name, value)], fuel + 1, text, _, held, _, same => by
    have stop : Json.EndsNumber ['\n', '}'] :=
      Value.endsNumber_cons (by decide) (by decide) (by decide) (by decide) ['}']
    have split := Json.splitValue?_write held.1 stop
    rw [envelopeLines, skipBlank_envelopeLine] at same
    exact Json.splitMembersFrom_last same split rfl
  | (name, value) :: other :: others, fuel + 1, text, _, held, enough, same => by
    have split := Json.splitValue?_write held.1
      (Value.endsNumber_comma (envelopeLines (other :: others)))
    have rest := splitMembersFrom_envelopeLines (other :: others) fuel _ (by simp) held.2
      (by simpa using enough) rfl
    rw [envelopeLines, skipBlank_envelopeLine] at same
    · rw [Json.splitMembersFrom_comma same split (Value.skipBlank_cons rfl _), rest]
      rfl
    · simp

/-- An envelope is longer than it has lines, so the reader has calls enough. -/
theorem length_le_envelopeLines (members : List (String × Value)) :
    members.length ≤ (Json.skipBlank (envelopeLines members)).length := by
  induction members with
  | nil => exact Nat.zero_le _
  | cons member others inductionHypothesis =>
    obtain ⟨name, value⟩ := member
    cases others with
    | nil =>
      rw [envelopeLines, skipBlank_envelopeLine]
      simp
    | cons other rest =>
      have shorter : (Json.skipBlank (envelopeLines (other :: rest))).length ≤
          (envelopeLines (other :: rest)).length :=
        (List.dropWhile_sublist _).length_le
      have longer := Json.length_quotedEnd name
        (':' :: ' ' :: (value.write [] ++ ',' :: envelopeLines (other :: rest)))
      rw [envelopeLines, skipBlank_envelopeLine]
      · simp only [List.length_cons, List.length_append] at inductionHypothesis shorter longer ⊢
        omega
      · simp

theorem splitMembers?_envelope {members : List (String × Value)} (some_ : members ≠ [])
    (held : Value.HeldMembers members) :
    Json.splitMembers? ('{' :: envelopeLines members) =
      some (members.map fun member => (some member.1, member.2.write [])) := by
  have enough := length_le_envelopeLines members
  have start : ∃ rest, Json.skipBlank (envelopeLines members) = '"' :: rest := by
    match members, some_ with
    | [(name, value)], _ => exact ⟨_, skipBlank_envelopeLine name _ _⟩
    | (name, value) :: other :: others, _ => exact ⟨_, skipBlank_envelopeLine name _ _⟩
  obtain ⟨rest, start⟩ := start
  have again : Json.skipBlank ('"' :: rest) = Json.skipBlank (envelopeLines members) := by
    rw [start, Value.skipBlank_cons rfl]
  rw [start, List.length_cons] at enough
  have read := splitMembersFrom_envelopeLines members (rest.length + 1 + 1) ('"' :: rest) some_ held
    (by omega) again
  have nothing : Json.skipBlank [] = [] := rfl
  unfold Json.splitMembers?
  rw [Value.skipBlank_cons rfl]
  simp [start, read, Json.whole?, nothing]

theorem held_envelopeMembers (writtenAt : Timestamp) {snapshot : Snapshot}
    (plain : snapshot.store.Plain) : Value.HeldMembers (envelopeMembers writtenAt snapshot) :=
  ⟨trivial, ⟨by decide, by decide⟩, trivial, trivial, Snapshot.held_toValue plain, trivial⟩

/-- An envelope is read as its parts if its fields are texts of such parts. -/
theorem readEnvelope?_of_fields {text snapshot : List Char} {writtenAt digest : String}
    (fields : envelopeFields? text = some
      [some ((Value.str format).write []), some ((Value.int version).write []),
        some ((Value.str writtenAt).write []), some ((Value.str digest).write []), some snapshot])
    (valid : Timestamp.isTimestamp writtenAt.toList = true) :
    readEnvelope? text = some ⟨format, version, digest, snapshot⟩ := by
  have text : ∀ text : String, Tree.read? ((Value.str text).write []) = some (.str (some text)) :=
    fun text => Value.read?_write (.str text) trivial
  have number : (Tree.read? ((Value.int version).write [])).bind (Tree.natBelow? (twoTo 32)) =
      some version := by
    have read := Value.read?_write (.int version) ⟨by decide, by decide⟩
    have value := Json.Numeral.value?_ofInt (n := version) (by decide) (by decide)
    rw [read, Option.bind_some, Value.tree_int, Tree.natBelow?, value]
    decide
  simp [readEnvelope?, fields, text, number, Tree.text?, valid]

/-- An envelope is read as its parts, and the snapshot stays the text that it was. -/
theorem readEnvelope?_envelope {writtenAt : Timestamp} (valid : writtenAt.Valid)
    {snapshot : Snapshot} (plain : snapshot.store.Plain) :
    readEnvelope? (envelope writtenAt snapshot.text) =
      some ⟨format, version, Blake3.hexDigest snapshot.text, snapshot.toValue.write []⟩ := by
  have held := held_envelopeMembers writtenAt plain
  have split := splitMembers?_envelope (by simp [envelopeMembers]) held
  have fields := Tree.fieldsOfMembers?_eq
    ((envelopeMembers writtenAt snapshot).map fun member => (member.1, member.2.write []))
    (by simp [envelopeMembers])
  simp only [List.map_map, Function.comp_def] at fields
  have isTimestamp : Timestamp.isTimestamp (String.ofList writtenAt.write).toList = true := by
    rw [String.toList_ofList]
    exact Timestamp.isTimestamp_write valid
  refine readEnvelope?_of_fields ?_ isTimestamp
  rw [envelope_eq, envelopeFields?, split]
  exact fields

/-- A checkpoint is read as the snapshot that was saved, exactly if the snapshot nests no deeper
than the reader allows. -/
theorem decode_encode {writtenAt : Timestamp} (valid : writtenAt.Valid) {snapshot : Snapshot}
    (plain : snapshot.store.Plain) :
    decode (encode writtenAt snapshot) =
      if snapshot.toValue.depth ≤ maximumDepth then .ok snapshot
      else .error (.checkpointCorrupt .snapshot) := by
  have envelope_ := readEnvelope?_envelope valid plain
  have text : String.ofList (snapshot.toValue.write []) = snapshot.text := rfl
  unfold decode encode
  rw [String.toList_ofList, envelope_]
  simp only [text, ne_eq, not_true_eq_false, if_false, Snapshot.ofText?_text plain]
  by_cases fits : snapshot.toValue.depth ≤ maximumDepth <;> simp [fits]

theorem textOf?_encodeUtf8 (text : String) : textOf? (Text.encodeUtf8 text) = some text := by
  rw [textOf?, Text.decodeUtf8?_encodeUtf8, Option.some_or]

theorem decodeBytes_encodeUtf8 (text : String) :
    decodeBytes (Text.encodeUtf8 text) = decode text := by
  rw [decodeBytes, textOf?_encodeUtf8]

end Checkpoint

end JobGraph
