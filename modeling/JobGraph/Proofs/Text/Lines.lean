import JobGraph.Text.Bytes
import Mathlib.Tactic.SplitIfs

/-!
# Lines of bytes

Bytes are the UTF-8 of at most one text (`decodeUtf8?_eq_some_iff`).  A byte of the basic character
class stands for itself wherever it is, so bytes around it are text exactly if both sides are
(`isText_append_cons`).  Lines are cut at one such byte, and what is read of a stream goes up to the
first line that is not text (`lines_append_newline`): what stands before bytes that are not text is
all that can be read (`infix_of_mem_lines_broken`).
-/

namespace JobGraph.Text

/-! ## Bytes of texts -/

private theorem toList_loop_eq (bytes : ByteArray) (start : Nat) (before : List UInt8) :
    ByteArray.toList.loop bytes start before = before.reverse ++ bytes.data.toList.drop start := by
  fun_induction ByteArray.toList.loop bytes start before with
  | case1 start before below inductionHypothesis =>
    have below' : start < bytes.data.toList.length := by simpa using below
    rw [inductionHypothesis, List.drop_eq_getElem_cons below']
    simp [ByteArray.get!, below]
  | case2 start before past =>
    rw [List.drop_eq_nil_of_le (by simpa using Nat.le_of_not_lt past)]
    simp

private theorem toList_eq (bytes : ByteArray) : bytes.toList = bytes.data.toList := by
  simp [ByteArray.toList, toList_loop_eq]

theorem encodeUtf8_eq (text : String) :
    encodeUtf8 text = text.toList.flatMap String.utf8EncodeChar := by
  have bytes : text.toUTF8 = text.toList.utf8Encode := by
    rw [← String.toByteArray_ofList, String.ofList_toList]
    rfl
  rw [encodeUtf8, bytes, toList_eq]
  exact List.toList_data_toByteArray

theorem encodeUtf8_append (first second : String) :
    encodeUtf8 (first ++ second) = encodeUtf8 first ++ encodeUtf8 second := by
  simp [encodeUtf8_eq]

theorem encodeUtf8_empty : encodeUtf8 "" = [] := by
  rw [encodeUtf8_eq]
  rfl

theorem isPrefix_encodeUtf8 {first second : String} (front : first.toList <+: second.toList) :
    encodeUtf8 first <+: encodeUtf8 second := by
  obtain ⟨rest, same⟩ := front
  rw [encodeUtf8_eq, encodeUtf8_eq, ← same, List.flatMap_append]
  exact List.prefix_append ..

theorem encodeUtf8_ofList (characters : List Char) :
    encodeUtf8 (String.ofList characters) = characters.flatMap String.utf8EncodeChar := by
  rw [encodeUtf8_eq, String.toList_ofList]

/-- Bytes are read as the text whose bytes they are. -/
theorem decodeUtf8?_eq_some_iff {bytes : List UInt8} {text : String} :
    decodeUtf8? bytes = some text ↔ encodeUtf8 text = bytes := by
  unfold decodeUtf8? String.fromUTF8? encodeUtf8
  constructor
  · intro read
    split at read
    next valid =>
      obtain rfl := Option.some.inj read
      simp [String.fromUTF8, toList_eq]
    next => simp at read
  · rintro rfl
    have same : (⟨text.toUTF8.toList.toArray⟩ : ByteArray) = text.toUTF8 := by
      simp [toList_eq]
    have valid : text.toUTF8.IsValidUTF8 := text.isValidUTF8
    rw [same, dif_pos valid]
    rfl

@[simp]
theorem decodeUtf8?_encodeUtf8 (text : String) : decodeUtf8? (encodeUtf8 text) = some text :=
  decodeUtf8?_eq_some_iff.2 rfl

theorem encodeUtf8_injective {first second : String} (same : encodeUtf8 first = encodeUtf8 second) :
    first = second := by
  have read := decodeUtf8?_encodeUtf8 second
  rw [← same, decodeUtf8?_encodeUtf8] at read
  exact Option.some.inj read

theorem encodeUtf8_eq_nil {text : String} : encodeUtf8 text = [] ↔ text = "" :=
  ⟨fun nothing => encodeUtf8_injective (nothing.trans encodeUtf8_empty.symm),
    fun empty => empty ▸ encodeUtf8_empty⟩

theorem utf8EncodeChar_injective {first second : Char}
    (same : String.utf8EncodeChar first = String.utf8EncodeChar second) : first = second := by
  have texts : String.ofList [first] = String.ofList [second] :=
    encodeUtf8_injective (by
      rw [encodeUtf8_ofList, encodeUtf8_ofList, List.flatMap_singleton, List.flatMap_singleton,
        same])
  simpa using congrArg String.toList texts

/-! ## Bytes that are text -/

/-- The bytes are those of a text. -/
def IsText (bytes : List UInt8) : Prop := (decodeUtf8? bytes).isSome

theorem isText_iff {bytes : List UInt8} :
    IsText bytes ↔ ∃ characters : List Char, characters.flatMap String.utf8EncodeChar = bytes := by
  unfold IsText
  rw [Option.isSome_iff_exists]
  constructor
  · rintro ⟨text, read⟩
    exact ⟨text.toList, by rw [← encodeUtf8_eq, decodeUtf8?_eq_some_iff.1 read]⟩
  · rintro ⟨characters, same⟩
    exact ⟨String.ofList characters,
      decodeUtf8?_eq_some_iff.2 (by rw [encodeUtf8_ofList, same])⟩

theorem isText_encodeUtf8 (text : String) : IsText (encodeUtf8 text) := by
  rw [IsText, decodeUtf8?_encodeUtf8]
  rfl

/-- A byte of the basic class is the whole of its character. -/
theorem utf8EncodeChar_eq_of_mem {c : Char} {byte : UInt8} (basic : byte < 128)
    (mem : byte ∈ String.utf8EncodeChar c) : String.utf8EncodeChar c = [byte] := by
  have other : ∀ n, 128 ≤ n → n < 256 → byte ≠ UInt8.ofNat n := by
    intro n low high same
    have value : byte.toNat = n := by rw [same, UInt8.toNat_ofNat', Nat.mod_eq_of_lt high]
    have small : byte.toNat < 128 := basic
    omega
  have tail := fun n => other (n % 64 + 128) (by omega) (by omega)
  have two := fun n => other (n % 32 + 192) (by omega) (by omega)
  have three := fun n => other (n % 16 + 224) (by omega) (by omega)
  have four := fun n => other (n % 8 + 240) (by omega) (by omega)
  rw [String.utf8EncodeChar] at mem ⊢
  split_ifs at mem ⊢
  · rw [List.mem_singleton.1 mem]
  all_goals
    simp only [List.mem_cons, List.not_mem_nil, or_false, tail, two, three, four] at mem

/-- Every byte of the basic class is a character. -/
theorem exists_utf8EncodeChar {byte : UInt8} (basic : byte < 128) :
    ∃ c, String.utf8EncodeChar c = [byte] := by
  have small : byte.toNat < 128 := basic
  have valid : byte.toNat.isValidChar := Or.inl (by omega)
  have value : (Char.ofNat byte.toNat).val.toNat = byte.toNat := by
    rw [Char.ofNat, dif_pos valid]
    rfl
  refine ⟨Char.ofNat byte.toNat, ?_⟩
  rw [String.utf8EncodeChar, value, if_pos (by omega), UInt8.ofNat_toNat]

/-- The bytes around a byte of the basic class are text exactly if both sides are. -/
theorem isText_append_cons {byte : UInt8} (basic : byte < 128) (before after : List UInt8) :
    IsText (before ++ byte :: after) ↔ IsText before ∧ IsText after := by
  simp only [isText_iff]
  constructor
  · rintro ⟨characters, same⟩
    induction characters generalizing before with
    | nil => simp at same
    | cons c others inductionHypothesis =>
      rw [List.flatMap_cons] at same
      rcases List.append_eq_append_iff.1 same with ⟨front, parts, rest⟩ | ⟨back, parts, rest⟩
      · obtain ⟨⟨first, firstSame⟩, second⟩ := inductionHypothesis _ rest
        refine ⟨⟨c :: first, ?_⟩, second⟩
        rw [List.flatMap_cons, firstSame, parts]
      · cases back with
        | nil =>
          obtain ⟨-, second⟩ := inductionHypothesis [] rest.symm
          exact ⟨⟨[c], by simp [parts]⟩, second⟩
        | cons head back =>
          -- The byte is one of those of `c`, so it is all of them.
          obtain ⟨rfl, tail⟩ := List.cons.inj rest
          have whole := utf8EncodeChar_eq_of_mem basic (c := c) (by simp [parts])
          obtain ⟨rfl, rfl⟩ : before = [] ∧ back = [] := by
            have length := congrArg List.length (whole.symm.trans parts)
            simp only [List.length_append, List.length_cons, List.length_nil] at length
            exact ⟨List.length_eq_zero_iff.1 (by omega), List.length_eq_zero_iff.1 (by omega)⟩
          exact ⟨⟨[], rfl⟩, others, tail.symm⟩
  · rintro ⟨⟨first, rfl⟩, second, rfl⟩
    obtain ⟨c, same⟩ := exists_utf8EncodeChar basic
    exact ⟨first ++ c :: second, by simp [same]⟩

/-- A character of the basic class is among the characters of a text exactly if its byte is among
the bytes. -/
theorem mem_encodeUtf8 {c : Char} {byte : UInt8} (basic : byte < 128)
    (alone : String.utf8EncodeChar c = [byte]) {text : String} :
    byte ∈ encodeUtf8 text ↔ c ∈ text.toList := by
  rw [encodeUtf8_eq, List.mem_flatMap]
  constructor
  · rintro ⟨other, listed, mem⟩
    have same := utf8EncodeChar_injective (alone.trans (utf8EncodeChar_eq_of_mem basic mem).symm)
    exact same ▸ listed
  · exact fun listed => ⟨c, listed, alone ▸ List.mem_singleton_self _⟩

theorem newline_mem_encodeUtf8 {text : String} : 10 ∈ encodeUtf8 text ↔ '\n' ∈ text.toList :=
  mem_encodeUtf8 (by decide) rfl

/-! ## Lines -/

/-- A line ends at the first end of a line, and the reading goes on after it if it was text. -/
theorem linesFrom_append_newline {begun bytes : List UInt8} (whole : 10 ∉ bytes)
    (rest : List UInt8) :
    linesFrom begun (bytes ++ 10 :: rest) =
      match decodeUtf8? (dropReturn (begun.reverse ++ bytes)) with
      | some text => text :: lines rest
      | none => [] := by
  induction bytes generalizing begun with
  | nil =>
    rw [List.nil_append, linesFrom, if_pos rfl, List.append_nil]
    rfl
  | cons byte others inductionHypothesis =>
    have other : byte ≠ 10 := fun same => whole (same ▸ List.mem_cons_self)
    have left : 10 ∉ others := fun mem => whole (List.mem_cons_of_mem _ mem)
    rw [List.cons_append, linesFrom, if_neg other, inductionHypothesis left, List.reverse_cons,
      List.append_assoc, List.singleton_append]

theorem lines_append_newline {bytes : List UInt8} (whole : 10 ∉ bytes) (rest : List UInt8) :
    lines (bytes ++ 10 :: rest) =
      match decodeUtf8? (dropReturn bytes) with
      | some text => text :: lines rest
      | none => [] :=
  linesFrom_append_newline whole rest

/-- What stands after the last end of a line is a line of its own. -/
theorem lines_of_no_newline {bytes : List UInt8} (whole : 10 ∉ bytes) :
    lines bytes = if bytes.isEmpty then [] else (decodeUtf8? bytes).toList := by
  have begun : ∀ line : List UInt8, linesFrom line bytes =
      if (line.reverse ++ bytes).isEmpty then []
      else (decodeUtf8? (line.reverse ++ bytes)).toList := by
    induction bytes with
    | nil => intro line; simp [linesFrom]
    | cons byte others inductionHypothesis =>
      intro line
      have other : byte ≠ 10 := fun same => whole (same ▸ List.mem_cons_self)
      have left : 10 ∉ others := fun mem => whole (List.mem_cons_of_mem _ mem)
      rw [linesFrom, if_neg other, inductionHypothesis left, List.reverse_cons, List.append_assoc,
        List.singleton_append]
  exact begun []

/-- Bytes are some lines, one after the other, and what stands after the last end of a line. -/
theorem lines_induct {P : List UInt8 → Prop} (last : ∀ bytes, 10 ∉ bytes → P bytes)
    (line : ∀ bytes rest, 10 ∉ bytes → P rest → P (bytes ++ 10 :: rest)) (bytes : List UInt8) :
    P bytes := by
  induction length : bytes.length using Nat.strongRecOn generalizing bytes with
  | ind length inductionHypothesis =>
    by_cases more : 10 ∈ bytes
    · obtain ⟨front, rest, rfl, first⟩ := List.eq_append_cons_of_mem more
      refine line front rest first (inductionHypothesis rest.length ?_ rest rfl)
      rw [← length, List.length_append, List.length_cons]
      omega
    · exact last bytes more

theorem dropReturn_isPrefix (line : List UInt8) : dropReturn line <+: line := by
  unfold dropReturn
  split
  next rest same =>
    have parts : line = rest.reverse ++ [13] := by
      rw [← List.reverse_reverse line, same, List.reverse_cons]
    exact ⟨[13], parts.symm⟩
  next => exact List.prefix_refl line

/-- A line is read from bytes that stand there one after the other. -/
theorem infix_of_mem_lines {line : String} {bytes : List UInt8} (mem : line ∈ lines bytes) :
    encodeUtf8 line <:+: bytes := by
  induction bytes using lines_induct with
  | last bytes whole =>
    rw [lines_of_no_newline whole] at mem
    split at mem
    · cases mem
    · have same := decodeUtf8?_eq_some_iff.1 (Option.mem_toList.1 mem)
      exact same ▸ List.infix_rfl
  | line bytes rest whole inductionHypothesis =>
    rw [lines_append_newline whole] at mem
    split at mem
    next text read =>
      rcases List.mem_cons.1 mem with rfl | later
      · rw [decodeUtf8?_eq_some_iff.1 read]
        exact ((dropReturn_isPrefix bytes).trans (List.prefix_append ..)).isInfix
      · exact (inductionHypothesis later).trans
          ((List.suffix_cons 10 rest).trans (List.suffix_append ..)).isInfix
    next => cases mem

/-- Whether bytes are whole lines, with an end of a line after each. -/
def wholeLines (bytes : List UInt8) : Bool := bytes.getLast?.all (· = 10)

theorem wholeLines_append_newline (bytes rest : List UInt8) :
    wholeLines (bytes ++ 10 :: rest) = wholeLines rest := by
  cases rest with
  | nil => simp [wholeLines]
  | cons byte others => simp [wholeLines, List.getLast?_cons]

/-- A line that is left open is no whole line. -/
theorem wholeLines_append {last : List UInt8} (some_ : last ≠ []) (unbroken : 10 ∉ last)
    (front : List UInt8) : wholeLines (front ++ last) = false := by
  have other : last.getLast some_ ≠ 10 := fun same => unbroken (same ▸ List.getLast_mem some_)
  rw [wholeLines, List.getLast?_append, List.getLast?_eq_some_getLast some_, Option.some_or,
    Option.all_some]
  exact decide_eq_false other

/-- A carriage return at the end of a line makes it neither text nor anything else. -/
theorem isText_dropReturn {line : List UInt8} : IsText (dropReturn line) ↔ IsText line := by
  unfold dropReturn
  split
  next other reversed =>
    have parts : line = other.reverse ++ 13 :: [] := by
      rw [← List.reverse_reverse line, reversed, List.reverse_cons]
    have nothing : IsText [] := isText_iff.2 ⟨[], rfl⟩
    rw [parts, isText_append_cons (by decide)]
    exact (and_iff_left nothing).symm
  next => exact Iff.rfl

theorem decodeUtf8?_eq_none_iff {bytes : List UInt8} :
    decodeUtf8? bytes = none ↔ ¬IsText bytes := by
  rw [IsText, Option.not_isSome_iff_eq_none]

/-- A line that begins with what is not text ends the reading, whatever follows after a byte of the
basic class. -/
theorem lines_of_broken {begun : List UInt8} (broken : ¬IsText begun) (whole : 10 ∉ begun)
    {byte : UInt8} (basic : byte < 128) (rest : List UInt8) :
    lines (begun ++ byte :: rest) = [] := by
  by_cases ends : byte = 10
  · subst ends
    rw [lines_append_newline whole, decodeUtf8?_eq_none_iff.2 (mt isText_dropReturn.1 broken)]
  have line : ∀ left, ¬IsText (begun ++ byte :: left) := fun left text =>
    broken ((isText_append_cons basic begun left).1 text).1
  have unended : ∀ left, 10 ∉ left → 10 ∉ begun ++ byte :: left := by
    intro left unbroken
    rw [List.mem_append, List.mem_cons]
    rintro (inside | same | later)
    · exact whole inside
    · exact ends same.symm
    · exact unbroken later
  -- The line goes on up to the next end of a line, or to the end of the bytes.
  by_cases more : 10 ∈ rest
  · obtain ⟨left, after, rfl, unbroken⟩ := List.eq_append_cons_of_mem more
    rw [← List.cons_append, ← List.append_assoc, lines_append_newline (unended left unbroken),
      decodeUtf8?_eq_none_iff.2 (mt isText_dropReturn.1 (line left))]
  · rw [lines_of_no_newline (unended rest more), decodeUtf8?_eq_none_iff.2 (line rest),
      Option.toList_none, ite_self]

/-- Bytes that are not text end the reading: no line is read from what follows them. -/
theorem infix_of_mem_lines_broken {bytes : List UInt8} (broken : ¬IsText bytes) {byte : UInt8}
    (basic : byte < 128) {rest : List UInt8} {line : String}
    (mem : line ∈ lines (bytes ++ byte :: rest)) : encodeUtf8 line <:+: bytes := by
  induction bytes using lines_induct with
  | last begun whole =>
    rw [lines_of_broken broken whole basic] at mem
    cases mem
  | line first others whole inductionHypothesis =>
    rw [List.append_assoc, List.cons_append, lines_append_newline whole] at mem
    split at mem
    next text read =>
      have firstText : IsText first :=
        isText_dropReturn.1 (Option.isSome_iff_exists.2 ⟨text, read⟩)
      have othersBroken : ¬IsText others := fun othersText =>
        broken ((isText_append_cons (by decide) first others).2 ⟨firstText, othersText⟩)
      rcases List.mem_cons.1 mem with rfl | later
      · rw [decodeUtf8?_eq_some_iff.1 read]
        exact ((dropReturn_isPrefix first).trans (List.prefix_append ..)).isInfix
      · exact (inductionHypothesis othersBroken later).trans
          ((List.suffix_cons 10 others).trans (List.suffix_append ..)).isInfix
    next => cases mem

/-- The lines of whole lines of text are followed by the lines of what comes after. -/
theorem lines_append {bytes : List UInt8} (text : IsText bytes) (whole : wholeLines bytes)
    (rest : List UInt8) : lines (bytes ++ rest) = lines bytes ++ lines rest := by
  induction bytes using lines_induct with
  | last bytes other =>
    cases last : bytes.getLast? with
    | none =>
      rw [List.getLast?_eq_none_iff.1 last]
      rfl
    | some byte =>
      rw [wholeLines, last] at whole
      exact absurd (of_decide_eq_true whole ▸ List.mem_of_getLast? last) other
  | line bytes others other inductionHypothesis =>
    rw [wholeLines_append_newline] at whole
    obtain ⟨first, second⟩ := (isText_append_cons (by decide) bytes others).1 text
    obtain ⟨line, read⟩ := Option.isSome_iff_exists.1 (isText_dropReturn.2 first)
    rw [List.append_assoc, List.cons_append, lines_append_newline other, lines_append_newline other,
      read, inductionHypothesis second whole]
    rfl

/-- Text is whole lines of text and a beginning of a line. -/
theorem exists_lastLine {bytes : List UInt8} (text : IsText bytes) :
    ∃ front last, front ++ last = bytes ∧ wholeLines front ∧ IsText front ∧ IsText last ∧
      10 ∉ last := by
  induction bytes using lines_induct with
  | last bytes other => exact ⟨[], bytes, rfl, rfl, isText_iff.2 ⟨[], rfl⟩, text, other⟩
  | line bytes others other inductionHypothesis =>
    obtain ⟨first, second⟩ := (isText_append_cons (by decide) bytes others).1 text
    obtain ⟨front, last, same, whole, frontText, lastText, begun⟩ := inductionHypothesis second
    refine ⟨bytes ++ 10 :: front, last, by simp [same], ?_, ?_, lastText, begun⟩
    · rw [wholeLines_append_newline]
      exact whole
    · exact (isText_append_cons (by decide) bytes front).2 ⟨first, frontText⟩

theorem dropReturn_append (line : List UInt8) : dropReturn (line ++ [13]) = line := by
  simp [dropReturn]

theorem dropReturn_of_getLast? {line : List UInt8} (other : line.getLast? ≠ some 13) :
    dropReturn line = line := by
  rw [← List.head?_reverse] at other
  unfold dropReturn
  split
  next rest same => exact absurd (by rw [same]; rfl) other
  next => rfl

/-- The carriage return at the end of a text is the one at the end of its bytes. -/
theorem dropReturn_encodeUtf8 (text : String) :
    ∃ shorter : String, dropReturn (encodeUtf8 text) = encodeUtf8 shorter ∧
      (shorter = text ∨ shorter ++ "\r" = text) := by
  rcases List.eq_nil_or_concat text.toList with empty | ⟨front, last, parts⟩
  · exact ⟨text, by rw [encodeUtf8_eq, empty]; rfl, Or.inl rfl⟩
  have bytes : encodeUtf8 text =
      front.flatMap String.utf8EncodeChar ++ String.utf8EncodeChar last := by
    simp [encodeUtf8_eq, parts]
  by_cases return_ : last = '\r'
  · refine ⟨String.ofList front, ?_, Or.inr ?_⟩
    · rw [bytes, return_, encodeUtf8_ofList]
      exact dropReturn_append _
    · rw [return_] at parts
      exact String.toList_injective (by simp [parts])
  · refine ⟨text, dropReturn_of_getLast? fun same => return_ ?_, Or.inl rfl⟩
    have mem : 13 ∈ String.utf8EncodeChar last := by
      have some_ : String.utf8EncodeChar last ≠ [] := String.utf8EncodeChar_ne_nil
      rw [bytes, List.getLast?_append, List.getLast?_eq_some_getLast some_, Option.some_or,
        Option.some.injEq] at same
      exact same ▸ List.getLast_mem some_
    exact utf8EncodeChar_injective (utf8EncodeChar_eq_of_mem (by decide) mem)

/-- A line of text is read without the carriage return at its end. -/
theorem exists_lines_encodeUtf8_append {text : String} (whole : '\n' ∉ text.toList)
    (rest : List UInt8) :
    ∃ shorter : String, (shorter = text ∨ shorter ++ "\r" = text) ∧
      lines (encodeUtf8 (text ++ "\n") ++ rest) = shorter :: lines rest := by
  obtain ⟨shorter, same, kind⟩ := dropReturn_encodeUtf8 text
  have ending : encodeUtf8 "\n" = [10] := by
    rw [encodeUtf8_eq]
    rfl
  have bytes : encodeUtf8 (text ++ "\n") ++ rest = encodeUtf8 text ++ 10 :: rest := by
    rw [encodeUtf8_append, List.append_assoc, ending, List.singleton_append]
  refine ⟨shorter, kind, ?_⟩
  rw [bytes, lines_append_newline (mt newline_mem_encodeUtf8.1 whole), same, decodeUtf8?_encodeUtf8]

/-- A line of text is read as it was written if it does not end with a carriage return. -/
theorem lines_encodeUtf8_append {text : String} (whole : '\n' ∉ text.toList)
    (kept : text.toList.getLast? ≠ some '\r') (rest : List UInt8) :
    lines (encodeUtf8 (text ++ "\n") ++ rest) = text :: lines rest := by
  obtain ⟨shorter, kind, read⟩ := exists_lines_encodeUtf8_append whole rest
  rcases kind with same | cut
  · rw [read, same]
  · exact absurd (by rw [← cut]; simp) kept

end JobGraph.Text
