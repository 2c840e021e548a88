import JobGraph.Proofs.Json.ReadBack

/-!
# Texts of parts

A reader that succeeds has taken a front off the text, and takes it again whatever part of the rest
follows it (`Stable`, and `Reads` for the readers that count their calls).  So the text of a value
that is cut out of a text is read by itself as the value that it is there (`splitValue?_reads`), and
the parts of an object or an array are those of the tree that the whole text is read as
(`read?_of_splitMembers?`, `read?_of_splitItems?`).
-/

namespace JobGraph.Json

variable {text rest tail : List Char} {c : Char}

/-! ## Blanks -/

/-- Blanks in front of something else are skipped whatever follows it. -/
theorem exists_blanks (skipped : skipBlank text = c :: rest) :
    isBlank c = false ∧ ∃ blanks, text = blanks ++ c :: rest ∧
      ∀ tail, skipBlank (blanks ++ c :: tail) = c :: tail := by
  have split : text.takeWhile isBlank ++ c :: rest = text := by
    rw [← skipped]
    exact List.takeWhile_append_dropWhile
  have visible : isBlank c = false := by
    have first := List.head?_dropWhile_not isBlank text
    rw [show text.dropWhile isBlank = c :: rest from skipped] at first
    simpa using first
  refine ⟨visible, _, split.symm, fun tail => ?_⟩
  rw [skipBlank, List.dropWhile_append_of_pos (List.all_eq_true.1 List.all_takeWhile)]
  exact Value.skipBlank_cons visible tail

/-! ## Strings and numbers -/

/-- What is read off the front of a text is read off it in front of every part of the rest. -/
def Stable {α : Type} (read : List Char → Option (α × List Char)) : Prop :=
  ∀ {text result rest}, read text = some (result, rest) →
    ∃ front, text = front ++ rest ∧
      ∀ tail, tail <+: rest → read (front ++ tail) = some (result, tail)

theorem stable_readUnits : Stable readUnits := by
  intro text units rest read
  induction text using readUnits.induct generalizing units with
  | case1 => simp [readUnits] at read
  | case2 text =>
    simp only [readUnits, Option.some_inj, Prod.mk.injEq] at read
    obtain ⟨rfl, rfl⟩ := read
    exact ⟨['"'], rfl, fun tail _ => by simp [readUnits]⟩
  | case3 a b c d text w x y z fourth third second first inductionHypothesis =>
    simp only [readUnits, first, second, third, fourth, Option.map_eq_some_iff] at read
    obtain ⟨⟨others, _⟩, inner, same⟩ := read
    cases same
    obtain ⟨front, rfl, again⟩ := inductionHypothesis inner
    refine ⟨'\\' :: 'u' :: a :: b :: c :: d :: front, rfl, fun tail part => ?_⟩
    simp [readUnits, first, second, third, fourth, again tail part]
  | case4 a b c d text refused =>
    rw [readUnits] at read
    split at read
    next first second third fourth => exact absurd fourth (refused _ _ _ _ first second third)
    next => cases read
  | case5 letter text _ plain short inductionHypothesis =>
    have other : letter ≠ 'u' := by
      rintro rfl
      cases short
    simp only [readUnits, short, Option.map_eq_some_iff] at read
    obtain ⟨⟨others, _⟩, inner, same⟩ := read
    cases same
    obtain ⟨front, rfl, again⟩ := inductionHypothesis inner
    refine ⟨'\\' :: letter :: front, rfl, fun tail part => ?_⟩
    simp [readUnits, other, short, again tail part]
  | case6 letter text _ short => simp [readUnits, short] at read
  | case7 c text quote escape short refused =>
    rw [readUnits, if_pos refused] at read
    · cases read
    all_goals assumption
  | case8 c text quote escape short plain inductionHypothesis =>
    rw [readUnits, if_neg plain, Option.map_eq_some_iff] at read
    · obtain ⟨⟨others, _⟩, inner, same⟩ := read
      cases same
      obtain ⟨front, rfl, again⟩ := inductionHypothesis inner
      refine ⟨c :: front, rfl, fun tail part => ?_⟩
      rw [List.cons_append, readUnits, if_neg plain, again tail part]
      · rfl
      all_goals grind
    all_goals assumption

theorem stable_readString : Stable readString := by
  intro text result rest read
  obtain ⟨⟨units, _⟩, inner, same⟩ := Option.map_eq_some_iff.1 read
  cases same
  obtain ⟨front, split, again⟩ := stable_readUnits inner
  exact ⟨front, split, fun tail part => by rw [readString, again tail part]; rfl⟩

theorem mem_head?_of_isPrefix (part : tail <+: rest) (first : c ∈ tail.head?) : c ∈ rest.head? := by
  obtain ⟨more, rfl⟩ := part
  cases tail with
  | nil => cases first
  | cons _ _ => exact first

theorem EndsDigits.of_isPrefix (stop : EndsDigits rest) (part : tail <+: rest) : EndsDigits tail :=
  fun c first => stop c (mem_head?_of_isPrefix part first)

theorem isDigit_of_mem_takeWhile (text : List Char) :
    ∀ c ∈ text.takeWhile Char.isDigit, c.isDigit = true := List.all_eq_true.1 List.all_takeWhile

theorem endsDigits_dropWhile (text : List Char) : EndsDigits (text.dropWhile Char.isDigit) := by
  intro c first
  have stop := List.head?_dropWhile_not Char.isDigit text
  rw [Option.mem_def.1 first] at stop
  simpa using stop

/-- The digits before the point, as they stand in front of a text. -/
theorem readWhole_eq_some {digits : List Char} (read : readWhole text = some (digits, rest)) :
    text = digits ++ rest ∧ (∀ c ∈ digits, c.isDigit = true) ∧ digits ≠ [] ∧
      (digits = ['0'] ∨ digits.head? ≠ some '0') ∧ EndsDigits rest := by
  unfold readWhole at read
  split at read
  next =>
    split_ifs at read with alone
    cases read
    have stop := endsDigits_dropWhile rest
    have split := List.takeWhile_append_dropWhile (p := Char.isDigit) (l := rest)
    rw [List.isEmpty_iff.1 alone, List.nil_append] at split
    exact ⟨rfl, List.forall_mem_singleton.2 rfl, by simp, Or.inl rfl, split ▸ stop⟩
  next nonzero =>
    dsimp only at read
    split_ifs at read with nothing
    cases read
    have split := List.takeWhile_append_dropWhile (p := Char.isDigit) (l := text)
    refine ⟨split.symm, isDigit_of_mem_takeWhile text, by simpa using nothing,
      Or.inr fun zero => ?_, endsDigits_dropWhile text⟩
    cases front : text.takeWhile Char.isDigit with
    | nil => simp [front] at zero
    | cons first others =>
      rw [front, List.head?_cons, Option.some_inj] at zero
      rw [front, zero] at split
      exact nonzero _ split.symm

theorem stable_readWhole : Stable readWhole := by
  intro text digits rest read
  obtain ⟨same, all, some_, front, stop⟩ := readWhole_eq_some read
  exact ⟨digits, same, fun tail part => readWhole_append all some_ front (stop.of_isPrefix part)⟩

theorem stable_readFraction : Stable readFraction := by
  intro text fraction rest read
  unfold readFraction at read
  split at read
  next others =>
    dsimp only at read
    split_ifs at read with nothing
    cases read
    refine ⟨'.' :: others.takeWhile Char.isDigit, ?_, fun tail part => ?_⟩
    · rw [List.cons_append, List.takeWhile_append_dropWhile]
    · exact readFraction_point (isDigit_of_mem_takeWhile others) (by simpa using nothing)
        ((endsDigits_dropWhile others).of_isPrefix part)
  next whole =>
    cases read
    refine ⟨[], rfl, fun tail part => readFraction_none ?_⟩
    rintro _ first rfl
    obtain ⟨others, same⟩ := List.head?_eq_some_iff.1 (mem_head?_of_isPrefix part first)
    exact whole others same

theorem stable_readExponentDigits (negative : Bool) : Stable (readExponentDigits negative) := by
  intro text exponent rest read
  unfold readExponentDigits at read
  dsimp only at read
  split_ifs at read with nothing
  all_goals
    cases read
    refine ⟨text.takeWhile Char.isDigit, List.takeWhile_append_dropWhile.symm, fun tail part => ?_⟩
    have all := isDigit_of_mem_takeWhile text
    have stop := (endsDigits_dropWhile text).of_isPrefix part
    rw [readExponentDigits, takeWhile_digits all stop, dropWhile_digits all stop]
    simp [*]

theorem head_readExponentDigits {negative : Bool} {exponent : Option Int}
    (read : readExponentDigits negative text = some (exponent, rest)) :
    ∃ first others, text = first :: others ∧ first.isDigit = true := by
  cases text with
  | nil => simp [readExponentDigits] at read
  | cons first others =>
    refine ⟨first, others, rfl, ?_⟩
    by_contra other
    simp [readExponentDigits, other] at read

/-- An exponent without a sign is not taken for one with a sign. -/
theorem readExponent_unsigned {mark first : Char} (marks : mark = 'e' ∨ mark = 'E')
    (digit : first.isDigit = true) (others : List Char) :
    readExponent (mark :: first :: others) = readExponentDigits false (first :: others) := by
  have plus : first ≠ '+' := by
    rintro rfl
    cases digit
  have minus : first ≠ '-' := isDigit_ne_minus digit
  rcases marks with rfl | rfl <;> simp [readExponent, plus, minus]

theorem stable_readExponent : Stable readExponent := by
  intro text exponent rest read
  unfold readExponent at read
  split at read
  case h_7 lower upper =>
    cases read
    refine ⟨[], rfl, fun tail part => readExponent_none fun c first => ?_⟩
    obtain ⟨others, same⟩ := List.head?_eq_some_iff.1 (mem_head?_of_isPrefix part first)
    refine ⟨?_, ?_⟩
    · rintro rfl
      exact lower others same
    · rintro rfl
      exact upper others same
  all_goals obtain ⟨front, rfl, again⟩ := stable_readExponentDigits _ read
  · exact ⟨'e' :: '+' :: front, rfl, again⟩
  · exact ⟨'E' :: '+' :: front, rfl, again⟩
  · exact ⟨'e' :: '-' :: front, rfl, again⟩
  · exact ⟨'E' :: '-' :: front, rfl, again⟩
  all_goals
    obtain ⟨first, others, same, digit⟩ :=
      head_readExponentDigits (again [] (List.nil_prefix ..))
    rw [List.append_nil] at same
    subst same
  · exact ⟨'e' :: first :: others, rfl, fun tail part =>
      (readExponent_unsigned (.inl rfl) digit _).trans (again tail part)⟩
  · exact ⟨'E' :: first :: others, rfl, fun tail part =>
      (readExponent_unsigned (.inr rfl) digit _).trans (again tail part)⟩

/-- The parts of a number follow one another. -/
theorem readNumeral_eq_some_iff {numeral : Numeral} :
    readNumeral text = some (numeral, rest) ↔ ∃ unsigned middle last,
      text = (if numeral.negative then ['-'] else []) ++ unsigned ∧
        readWhole unsigned = some (numeral.whole, middle) ∧
        readFraction middle = some (numeral.fraction, last) ∧
        readExponent last = some (numeral.exponent, rest) := by
  obtain ⟨negative, whole, fraction, exponent⟩ := numeral
  constructor
  · intro read
    have parts : ∃ sign unsigned, text = (if sign = true then ['-'] else []) ++ unsigned ∧
        readNumeral text = (readWhole unsigned).bind fun whole =>
          (readFraction whole.2).bind fun fraction =>
            (readExponent fraction.2).bind fun exponent =>
              some (⟨sign, whole.1, fraction.1, exponent.1⟩, exponent.2) := by
      cases text with
      | nil => exact ⟨false, [], rfl, rfl⟩
      | cons first others =>
        by_cases minus : first = '-'
        · subst minus
          exact ⟨true, others, rfl, rfl⟩
        · refine ⟨false, first :: others, rfl, ?_⟩
          unfold readNumeral
          split
          next signed =>
            split at signed
            next same => exact absurd (List.cons.inj same).1 minus
            next =>
              cases signed
              rfl
    obtain ⟨sign, unsigned, same, steps⟩ := parts
    rw [steps] at read
    obtain ⟨⟨_, middle⟩, wholeRead, read⟩ := Option.bind_eq_some_iff.1 read
    obtain ⟨⟨_, last⟩, fractionRead, read⟩ := Option.bind_eq_some_iff.1 read
    obtain ⟨⟨_, _⟩, exponentRead, read⟩ := Option.bind_eq_some_iff.1 read
    cases read
    exact ⟨unsigned, middle, last, same, wholeRead, fractionRead, exponentRead⟩
  · rintro ⟨unsigned, middle, last, rfl, wholeRead, fractionRead, exponentRead⟩
    refine readNumeral_of_parts ?_ wholeRead fractionRead exponentRead
    obtain ⟨rfl, all, some_, -, -⟩ := readWhole_eq_some wholeRead
    obtain ⟨first, others, rfl⟩ := List.exists_cons_of_ne_nil some_
    rintro _ ⟨rfl⟩
    exact isDigit_ne_minus (all first List.mem_cons_self)

theorem stable_readNumeral : Stable readNumeral := by
  intro text numeral rest read
  obtain ⟨_, _, _, rfl, wholeRead, fractionRead, exponentRead⟩ := readNumeral_eq_some_iff.1 read
  obtain ⟨whole, rfl, wholeAgain⟩ := stable_readWhole wholeRead
  obtain ⟨fraction, rfl, fractionAgain⟩ := stable_readFraction fractionRead
  obtain ⟨exponent, rfl, exponentAgain⟩ := stable_readExponent exponentRead
  refine ⟨(if numeral.negative then ['-'] else []) ++ (whole ++ (fraction ++ exponent)),
    by simp only [List.append_assoc], fun tail part => readNumeral_eq_some_iff.2 ?_⟩
  have last : exponent ++ tail <+: exponent ++ rest := (List.prefix_append_right_inj _).2 part
  have middle : fraction ++ (exponent ++ tail) <+: fraction ++ (exponent ++ rest) :=
    (List.prefix_append_right_inj _).2 last
  exact ⟨whole ++ (fraction ++ (exponent ++ tail)), _, _, by simp only [List.append_assoc],
    wholeAgain _ middle, fractionAgain _ last, exponentAgain _ part⟩

/-- A number starts with its sign or with a digit. -/
theorem head_readNumeral {numeral : Numeral} (read : readNumeral text = some (numeral, rest)) :
    ∃ first others, text = first :: others ∧ (first = '-' ∨ first.isDigit = true) := by
  obtain ⟨unsigned, middle, _, rfl, wholeRead, -, -⟩ := readNumeral_eq_some_iff.1 read
  obtain ⟨rfl, all, some_, -, -⟩ := readWhole_eq_some wholeRead
  cases numeral.negative with
  | true => exact ⟨'-', _, rfl, Or.inl rfl⟩
  | false =>
    obtain ⟨first, others, same⟩ := List.exists_cons_of_ne_nil some_
    exact ⟨first, others ++ middle, by simp [same], Or.inr (all first (same ▸ List.mem_cons_self))⟩

/-! ## Values -/

/-- With calls enough, a reader takes a front off a text, whatever part of the rest follows it. -/
def Reads {α : Type} (read : Nat → List Char → Option (α × List Char)) (text : List Char)
    (result : α) (rest : List Char) : Prop :=
  ∃ front, front ≠ [] ∧ text = front ++ rest ∧ ∀ tail calls, tail <+: rest →
    2 * front.length ≤ calls → read calls (front ++ tail) = some (result, tail)

theorem readTree_congr {other : List Char} (same : skipBlank text = skipBlank other) (calls : Nat) :
    readTree calls text = readTree calls other := by
  cases calls with
  | zero => rfl
  | succ calls => rw [readTree, readTree, same]

/-- One call takes the first character that is no blank, and the rest of the calls what follows. -/
theorem reads_of_skipped (others : List Char) {tree : Tree}
    (skipped : skipBlank text = c :: (others ++ rest))
    (step : ∀ tail calls, tail <+: rest → 2 * others.length ≤ calls →
      readTree (calls + 1) (c :: (others ++ tail)) = some (tree, tail)) :
    Reads readTree text tree rest := by
  obtain ⟨visible, blanks, rfl, again⟩ := exists_blanks skipped
  refine ⟨blanks ++ c :: others, by simp, by simp, fun tail calls part enough => ?_⟩
  simp only [List.length_append, List.length_cons] at enough
  obtain ⟨less, rfl⟩ : ∃ less, calls = less + 1 := ⟨calls - 1, by omega⟩
  have same : skipBlank (blanks ++ c :: (others ++ tail)) = skipBlank (c :: (others ++ tail)) :=
    (again _).trans (Value.skipBlank_cons visible _).symm
  rw [List.append_assoc, List.cons_append, readTree_congr same]
  exact step tail less part (by omega)

theorem isPrefix_append_cons (blanks : List Char) (c : Char) (part : tail <+: rest) :
    blanks ++ c :: tail <+: blanks ++ c :: rest :=
  (List.prefix_append_right_inj _).2 (List.cons_prefix_cons.2 ⟨rfl, part⟩)

section Brackets

variable {α : Type} {inside : Nat → List Char → Option (α × List Char)} {wrap : α → Tree}
  {opening closing : Char} {inner : List Char} {parts : α}

/-- The parts between two brackets, of which there are some. -/
theorem reads_bracketed
    (shape : ∀ {calls text first others}, skipBlank text = first :: others → first ≠ closing →
      readTree (calls + 1) (opening :: text) =
        (inside calls (first :: others)).map fun (parts, after) => (wrap parts, after))
    (skipped : skipBlank text = opening :: inner)
    (further : ∀ after, skipBlank inner ≠ closing :: after)
    (reads : Reads inside (skipBlank inner) parts rest) :
    Reads readTree text (wrap parts) rest := by
  obtain ⟨front, some_, same, again⟩ := reads
  obtain ⟨first, others, rfl⟩ := List.exists_cons_of_ne_nil some_
  have apart : first ≠ closing := by
    rintro rfl
    exact further _ same
  obtain ⟨-, blanks, rfl, blankAgain⟩ := exists_blanks (same.trans (List.cons_append ..))
  have split : skipBlank text = opening :: ((blanks ++ first :: others) ++ rest) := by
    rw [skipped, List.append_assoc, List.cons_append]
  refine reads_of_skipped _ split fun tail calls part enough => ?_
  rw [List.append_assoc, List.cons_append, shape (blankAgain _) apart, ← List.cons_append,
    again tail calls part]
  · rfl
  · simp only [List.length_append] at enough
    omega

theorem reads_emptyBrackets {tree : Tree}
    (shape : ∀ {calls text after}, skipBlank text = closing :: after →
      readTree (calls + 1) (opening :: text) = some (tree, after))
    (skipped : skipBlank text = opening :: inner) (close : skipBlank inner = closing :: rest) :
    Reads readTree text tree rest := by
  obtain ⟨-, blanks, rfl, again⟩ := exists_blanks close
  have split : skipBlank text = opening :: ((blanks ++ [closing]) ++ rest) := by simp [skipped]
  refine reads_of_skipped _ split fun tail calls _ _ => shape ?_
  rw [List.append_assoc]
  exact again tail

end Brackets

theorem readTree_items {calls : Nat} {first : Char} {others : List Char}
    (skipped : skipBlank text = first :: others) (apart : first ≠ ']') :
    readTree (calls + 1) ('[' :: text) =
      (readItems calls (first :: others)).map fun (items, after) => (.arr items, after) := by
  simp only [readTree, Value.skipBlank_cons (c := '[') rfl, skipped]
  split
  next same => exact absurd (List.cons.inj same).1 apart
  next => rfl

theorem readTree_members {calls : Nat} {first : Char} {others : List Char}
    (skipped : skipBlank text = first :: others) (apart : first ≠ '}') :
    readTree (calls + 1) ('{' :: text) =
      (readMembers calls (first :: others)).map fun (members, after) => (.obj members, after) := by
  simp only [readTree, Value.skipBlank_cons (c := '{') rfl, skipped]
  split
  next same => exact absurd (List.cons.inj same).1 apart
  next => rfl

theorem readTree_noItems {calls : Nat} (close : skipBlank text = ']' :: rest) :
    readTree (calls + 1) ('[' :: text) = some (.arr [], rest) := by
  simp only [readTree, Value.skipBlank_cons (c := '[') rfl, close]

theorem readTree_noMembers {calls : Nat} (close : skipBlank text = '}' :: rest) :
    readTree (calls + 1) ('{' :: text) = some (.obj [], rest) := by
  simp only [readTree, Value.skipBlank_cons (c := '{') rfl, close]

section Parts

variable {afterItem afterQuote afterKey afterColon afterValue after : List Char} {item value : Tree}
  {items : List Tree} {key : Option String} {members : List (Option String × Tree)}

theorem Reads.lastItem (reads : Reads readTree text item afterItem)
    (close : skipBlank afterItem = ']' :: rest) : Reads readItems text [item] rest := by
  obtain ⟨front, some_, rfl, again⟩ := reads
  obtain ⟨-, blanks, rfl, blankAgain⟩ := exists_blanks close
  refine ⟨front ++ (blanks ++ [']']), by simp, by simp, fun tail calls part enough => ?_⟩
  simp only [List.length_append, List.length_singleton] at enough
  obtain ⟨less, rfl⟩ : ∃ less, calls = less + 1 := ⟨calls - 1, by omega⟩
  have read := again _ less (isPrefix_append_cons blanks ']' part) (by omega)
  simp only [List.append_assoc, List.cons_append, List.nil_append, readItems, read,
    blankAgain tail]

theorem Reads.moreItems (reads : Reads readTree text item afterItem)
    (next : skipBlank afterItem = ',' :: after) (others : Reads readItems after items rest) :
    Reads readItems text (item :: items) rest := by
  obtain ⟨front, some_, rfl, again⟩ := reads
  obtain ⟨-, blanks, rfl, blankAgain⟩ := exists_blanks next
  obtain ⟨more, -, rfl, moreAgain⟩ := others
  refine ⟨front ++ (blanks ++ ',' :: more), by simp, by simp, fun tail calls part enough => ?_⟩
  simp only [List.length_append, List.length_cons] at enough
  obtain ⟨less, rfl⟩ : ∃ less, calls = less + 1 := ⟨calls - 1, by omega⟩
  have behind : more ++ tail <+: more ++ rest := (List.prefix_append_right_inj _).2 part
  have read := again _ less (isPrefix_append_cons blanks ',' behind) (by omega)
  have rest := moreAgain tail less part (by omega)
  simp only [List.append_assoc, List.cons_append, readItems, read, blankAgain _, rest,
    Option.map_some]

/-- A key with its colon stands in front of whatever part of the rest follows it. -/
theorem exists_keyed (opens : skipBlank text = '"' :: afterQuote)
    (named : readString afterQuote = some (key, afterKey))
    (colon : skipBlank afterKey = ':' :: afterColon) :
    ∃ front, text = front ++ afterColon ∧ ∀ tail, tail <+: afterColon →
      ∃ quoted keyed, skipBlank (front ++ tail) = '"' :: quoted ∧
        readString quoted = some (key, keyed) ∧ skipBlank keyed = ':' :: tail := by
  obtain ⟨-, blanks, rfl, blankAgain⟩ := exists_blanks opens
  obtain ⟨string, rfl, stringAgain⟩ := stable_readString named
  obtain ⟨-, between, rfl, colonAgain⟩ := exists_blanks colon
  refine ⟨blanks ++ '"' :: (string ++ (between ++ [':'])), by simp, fun tail part => ?_⟩
  refine ⟨string ++ (between ++ ':' :: tail), between ++ ':' :: tail, ?_,
    stringAgain _ (isPrefix_append_cons between ':' part), colonAgain tail⟩
  simp only [List.append_assoc, List.cons_append, List.nil_append]
  exact blankAgain _

theorem Reads.lastMember (opens : skipBlank text = '"' :: afterQuote)
    (named : readString afterQuote = some (key, afterKey))
    (colon : skipBlank afterKey = ':' :: afterColon)
    (reads : Reads readTree afterColon value afterValue)
    (close : skipBlank afterValue = '}' :: rest) : Reads readMembers text [(key, value)] rest := by
  obtain ⟨lead, rfl, leadAgain⟩ := exists_keyed opens named colon
  obtain ⟨front, some_, rfl, again⟩ := reads
  obtain ⟨-, blanks, rfl, blankAgain⟩ := exists_blanks close
  refine ⟨lead ++ (front ++ (blanks ++ ['}'])), by simp, by simp, fun tail calls part enough => ?_⟩
  simp only [List.length_append, List.length_singleton] at enough
  obtain ⟨less, rfl⟩ : ∃ less, calls = less + 1 := ⟨calls - 1, by omega⟩
  have behind := isPrefix_append_cons blanks '}' part
  have read := again _ less behind (by omega)
  obtain ⟨quoted, keyed, opens, named, colon⟩ :=
    leadAgain _ ((List.prefix_append_right_inj front).2 behind)
  simp only [List.append_assoc, List.cons_append, List.nil_append, readMembers, opens, named, colon,
    read, blankAgain tail]

theorem Reads.moreMembers (opens : skipBlank text = '"' :: afterQuote)
    (named : readString afterQuote = some (key, afterKey))
    (colon : skipBlank afterKey = ':' :: afterColon)
    (reads : Reads readTree afterColon value afterValue)
    (next : skipBlank afterValue = ',' :: after) (others : Reads readMembers after members rest) :
    Reads readMembers text ((key, value) :: members) rest := by
  obtain ⟨lead, rfl, leadAgain⟩ := exists_keyed opens named colon
  obtain ⟨front, some_, rfl, again⟩ := reads
  obtain ⟨-, blanks, rfl, blankAgain⟩ := exists_blanks next
  obtain ⟨more, -, rfl, moreAgain⟩ := others
  refine ⟨lead ++ (front ++ (blanks ++ ',' :: more)), by simp, by simp,
    fun tail calls part enough => ?_⟩
  simp only [List.length_append, List.length_cons] at enough
  obtain ⟨less, rfl⟩ : ∃ less, calls = less + 1 := ⟨calls - 1, by omega⟩
  have behind := isPrefix_append_cons blanks ',' ((List.prefix_append_right_inj more).2 part)
  have read := again _ less behind (by omega)
  have rest := moreAgain tail less part (by omega)
  obtain ⟨quoted, keyed, opens, named, colon⟩ :=
    leadAgain _ ((List.prefix_append_right_inj front).2 behind)
  simp only [List.append_assoc, List.cons_append, readMembers, opens, named, colon, read,
    blankAgain _, rest, Option.map_some]

end Parts

/-- What starts with a sign or a digit is read as a number. -/
theorem readTree_number (kind : c = '-' ∨ c.isDigit = true) (calls : Nat) (others : List Char) :
    readTree (calls + 1) (c :: others) =
      (readNumeral (c :: others)).map fun (numeral, after) => (.number numeral, after) := by
  rw [readTree, Value.skipBlank_cons (Value.visible_of_numeral kind).1]
  split
  case h_7 => rfl
  all_goals next head => exact absurd ((List.cons.inj head).1 ▸ kind) (by decide)

mutual

/-- Whatever is read is read off a front of the text. -/
theorem reads_readTree : ∀ (fuel : Nat) (text : List Char) (tree : Tree) (rest : List Char),
    readTree fuel text = some (tree, rest) → Reads readTree text tree rest
  | 0, _, _, _, read => by simp [readTree] at read
  | fuel + 1, text, tree, rest, read => by
    rw [readTree] at read
    split at read
    case h_1 skipped =>
      cases read
      exact reads_of_skipped ['u', 'l', 'l'] skipped fun _ _ _ _ => rfl
    case h_2 skipped =>
      cases read
      exact reads_of_skipped ['r', 'u', 'e'] skipped fun _ _ _ _ => rfl
    case h_3 skipped =>
      cases read
      exact reads_of_skipped ['a', 'l', 's', 'e'] skipped fun _ _ _ _ => rfl
    case h_4 skipped =>
      obtain ⟨⟨string, _⟩, inner, same⟩ := Option.map_eq_some_iff.1 read
      cases same
      obtain ⟨front, rfl, again⟩ := stable_readString inner
      refine reads_of_skipped front skipped fun tail calls part _ => ?_
      have quote : readTree (calls + 1) ('"' :: (front ++ tail)) =
          (readString (front ++ tail)).map fun (text, after) => (.str text, after) := rfl
      rw [quote, again tail part]
      rfl
    case h_5 skipped =>
      split at read
      next close =>
        cases read
        exact reads_emptyBrackets readTree_noItems skipped close
      next further =>
        obtain ⟨⟨items, _⟩, inner, same⟩ := Option.map_eq_some_iff.1 read
        cases same
        exact reads_bracketed readTree_items skipped further (reads_readItems fuel _ _ _ inner)
    case h_6 skipped =>
      split at read
      next close =>
        cases read
        exact reads_emptyBrackets readTree_noMembers skipped close
      next further =>
        obtain ⟨⟨members, _⟩, inner, same⟩ := Option.map_eq_some_iff.1 read
        cases same
        exact reads_bracketed readTree_members skipped further (reads_readMembers fuel _ _ _ inner)
    case h_7 =>
      obtain ⟨⟨numeral, _⟩, inner, same⟩ := Option.map_eq_some_iff.1 read
      cases same
      obtain ⟨front, split, again⟩ := stable_readNumeral inner
      obtain ⟨first, others, whole, kind⟩ := head_readNumeral (again [] (List.nil_prefix ..))
      rw [List.append_nil] at whole
      subst whole
      refine reads_of_skipped others split fun tail calls part _ => ?_
      rw [readTree_number kind, ← List.cons_append, again tail part]
      rfl

theorem reads_readItems : ∀ (fuel : Nat) (text : List Char) (items : List Tree)
    (rest : List Char), readItems fuel text = some (items, rest) → Reads readItems text items rest
  | 0, _, _, _, read => by simp [readItems] at read
  | fuel + 1, text, items, rest, read => by
    rw [readItems] at read
    split at read
    next => cases read
    next item afterItem first =>
      have item := reads_readTree fuel _ _ _ first
      split at read
      next close =>
        cases read
        exact item.lastItem close
      next after next_ =>
        obtain ⟨⟨others, _⟩, inner, same⟩ := Option.map_eq_some_iff.1 read
        cases same
        exact item.moreItems next_ (reads_readItems fuel _ _ _ inner)
      next => cases read

theorem reads_readMembers : ∀ (fuel : Nat) (text : List Char)
    (members : List (Option String × Tree)) (rest : List Char),
      readMembers fuel text = some (members, rest) → Reads readMembers text members rest
  | 0, _, _, _, read => by simp [readMembers] at read
  | fuel + 1, text, members, rest, read => by
    rw [readMembers] at read
    split at read
    case h_2 => cases read
    case h_1 afterQuote opens =>
      split at read
      case h_1 => cases read
      case h_2 key afterKey named =>
        split at read
        case h_2 => cases read
        case h_1 afterColon colon =>
          split at read
          case h_1 => cases read
          case h_2 value afterValue first =>
            have value := reads_readTree fuel _ _ _ first
            split at read
            case h_1 close =>
              cases read
              exact .lastMember opens named colon value close
            case h_2 after next_ =>
              obtain ⟨⟨others, _⟩, inner, same⟩ := Option.map_eq_some_iff.1 read
              cases same
              exact .moreMembers opens named colon value next_ (reads_readMembers fuel _ _ _ inner)
            case h_3 => cases read

end

/-! ## Texts of parts -/

theorem Reads.suffix {α : Type} {read : Nat → List Char → Option (α × List Char)} {result : α}
    (reads : Reads read text result rest) : rest <:+ text := by
  obtain ⟨front, -, rfl, -⟩ := reads
  exact List.suffix_append ..

theorem suffix_of_skipBlank (skipped : skipBlank text = c :: rest) : rest <:+ text :=
  (List.suffix_cons c rest).trans (skipped ▸ List.dropWhile_suffix isBlank)

/-- What is read with nothing but blanks behind it is the whole text. -/
theorem Reads.read? {tree : Tree} (reads : Reads readTree text tree rest)
    (blank : skipBlank rest = []) : Tree.read? text = some tree := by
  obtain ⟨front, -, rfl, again⟩ := reads
  have enough : 2 * front.length ≤ readingFuel (front ++ rest) := by
    simp only [readingFuel, List.length_append]
    omega
  rw [Tree.read?, again rest _ List.prefix_rfl enough]
  simp [blank]

/-- A text that is cut out is read by itself as the value that it is in its place. -/
theorem splitValue?_reads {part : List Char} (split : splitValue? text = some (part, rest)) :
    part <:+: text ∧ ∃ tree, Tree.read? part = some tree ∧ Reads readTree text tree rest := by
  obtain ⟨⟨tree, _⟩, read, same⟩ := Option.map_eq_some_iff.1 split
  cases same
  obtain ⟨front, some_, whole, again⟩ := reads_readTree _ _ _ _ read
  have cut : (skipBlank text).take ((skipBlank text).length - rest.length) = front := by
    rw [whole, List.length_append, Nat.add_sub_cancel, List.take_left]
  rw [cut]
  have once : skipBlank (skipBlank text) = skipBlank text := by
    refine Value.skipBlank_eq fun c first => ?_
    have visible := List.head?_dropWhile_not isBlank text
    rw [show (text.dropWhile isBlank).head? = some c from first] at visible
    simpa using visible
  refine ⟨?_, tree, ?_, reads_readTree _ _ _ _ ((readTree_congr once.symm _).trans read)⟩
  · exact (whole ▸ List.prefix_append front rest).isInfix.trans
      (List.dropWhile_suffix isBlank).isInfix
  · have alone : Reads readTree front tree [] :=
      ⟨front, some_, (List.append_nil _).symm, fun tail calls part => by
        rw [List.prefix_nil.1 part]
        exact again [] calls (List.nil_prefix ..)⟩
    exact alone.read? rfl

/-- A key and a text of a member beside the member. -/
def Spells (part : Option String × List Char) (member : Option String × Tree) : Prop :=
  part.1 = member.1 ∧ Tree.read? part.2 = some member.2

theorem reads_of_splitMembersFrom : ∀ (fuel : Nat) (text : List Char)
    (parts : List (Option String × List Char)) (rest : List Char),
      splitMembersFrom fuel text = some (parts, rest) →
        (∀ part ∈ parts, part.2 <:+: text) ∧
          ∃ members, List.Forall₂ Spells parts members ∧ Reads readMembers text members rest
  | 0, _, _, _, split => by simp [splitMembersFrom] at split
  | fuel + 1, text, parts, rest, split => by
    rw [splitMembersFrom] at split
    split at split
    case h_2 => cases split
    case h_1 afterQuote opens =>
      split at split
      case h_1 => cases split
      case h_2 key afterKey named =>
        split at split
        case h_2 => cases split
        case h_1 afterColon colon =>
          split at split
          case h_1 => cases split
          case h_2 part afterValue first =>
            obtain ⟨within, tree, read, value⟩ := splitValue?_reads first
            obtain ⟨lead, same, -⟩ := exists_keyed opens named colon
            have behind : afterColon <:+ text := same ▸ List.suffix_append ..
            have inside : part <:+: text := within.trans behind.isInfix
            split at split
            case h_1 close =>
              cases split
              refine ⟨List.forall_mem_singleton.2 inside, [(key, tree)], .cons ⟨rfl, read⟩ .nil, ?_⟩
              exact .lastMember opens named colon value close
            case h_2 after next_ =>
              obtain ⟨⟨others, _⟩, inner, same⟩ := Option.map_eq_some_iff.1 split
              cases same
              obtain ⟨rests, members, spelled, reads⟩ :=
                reads_of_splitMembersFrom fuel _ _ _ inner
              have later : after <:+ text :=
                (suffix_of_skipBlank next_).trans (value.suffix.trans behind)
              refine ⟨List.forall_mem_cons.2 ⟨inside, fun part listed =>
                (rests part listed).trans later.isInfix⟩, (key, tree) :: members,
                  .cons ⟨rfl, read⟩ spelled, ?_⟩
              exact .moreMembers opens named colon value next_ reads
            case h_3 => cases split

theorem reads_of_splitItemsFrom : ∀ (fuel : Nat) (text : List Char) (parts : List (List Char))
    (rest : List Char), splitItemsFrom fuel text = some (parts, rest) →
      (∀ part ∈ parts, part <:+: text) ∧
        ∃ items, List.Forall₂ (fun part item => Tree.read? part = some item) parts items ∧
          Reads readItems text items rest
  | 0, _, _, _, split => by simp [splitItemsFrom] at split
  | fuel + 1, text, parts, rest, split => by
    rw [splitItemsFrom] at split
    split at split
    case h_1 => cases split
    case h_2 part afterItem first =>
      obtain ⟨inside, tree, read, item⟩ := splitValue?_reads first
      split at split
      case h_1 close =>
        cases split
        exact ⟨List.forall_mem_singleton.2 inside, _, .cons read .nil, item.lastItem close⟩
      case h_2 after next_ =>
        obtain ⟨⟨others, _⟩, inner, same⟩ := Option.map_eq_some_iff.1 split
        cases same
        obtain ⟨rests, items, read', reads⟩ := reads_of_splitItemsFrom fuel _ _ _ inner
        have later : after <:+ text := (suffix_of_skipBlank next_).trans item.suffix
        refine ⟨List.forall_mem_cons.2 ⟨inside, fun part listed =>
          (rests part listed).trans later.isInfix⟩, _, .cons read read', ?_⟩
        exact item.moreItems next_ reads
      case h_3 => cases split

theorem whole?_eq_some {α : Type} {result : α} {read : Option (α × List Char)}
    (whole : whole? read = some result) :
    ∃ rest, read = some (result, rest) ∧ skipBlank rest = [] := by
  unfold whole? at whole
  split at whole
  case h_1 found rest =>
    split_ifs at whole with blank
    cases whole
    exact ⟨rest, rfl, List.isEmpty_iff.1 blank⟩
  case h_2 => cases whole

/-- The members of the text of an object are those of the object that it is read as. -/
theorem read?_of_splitMembers? {parts : List (Option String × List Char)}
    (split : splitMembers? text = some parts) :
    (∀ part ∈ parts, part.2 <:+: text) ∧
      ∃ members, Tree.read? text = some (.obj members) ∧ List.Forall₂ Spells parts members := by
  unfold splitMembers? at split
  split at split
  case h_2 => cases split
  case h_1 inner opens =>
    split at split
    case h_1 after close =>
      obtain ⟨_, same, blank⟩ := whole?_eq_some split
      cases same
      refine ⟨List.forall_mem_nil _, [], ?_, .nil⟩
      exact (reads_emptyBrackets readTree_noMembers opens close).read? blank
    case h_2 further =>
      obtain ⟨rest, found, blank⟩ := whole?_eq_some split
      obtain ⟨inside, members, spelled, reads⟩ := reads_of_splitMembersFrom _ _ _ _ found
      refine ⟨fun part listed => (inside part listed).trans ?_, members, ?_, spelled⟩
      · exact ((List.dropWhile_suffix isBlank).trans (suffix_of_skipBlank opens)).isInfix
      · exact (reads_bracketed readTree_members opens further reads).read? blank

/-- The items of the text of an array are those of the array that it is read as. -/
theorem read?_of_splitItems? {parts : List (List Char)} (split : splitItems? text = some parts) :
    (∀ part ∈ parts, part <:+: text) ∧
      ∃ items, Tree.read? text = some (.arr items) ∧
        List.Forall₂ (fun part item => Tree.read? part = some item) parts items := by
  unfold splitItems? at split
  split at split
  case h_2 => cases split
  case h_1 inner opens =>
    split at split
    case h_1 after close =>
      obtain ⟨_, same, blank⟩ := whole?_eq_some split
      cases same
      refine ⟨List.forall_mem_nil _, [], ?_, .nil⟩
      exact (reads_emptyBrackets readTree_noItems opens close).read? blank
    case h_2 further =>
      obtain ⟨rest, found, blank⟩ := whole?_eq_some split
      obtain ⟨inside, items, read, reads⟩ := reads_of_splitItemsFrom _ _ _ _ found
      refine ⟨fun part listed => (inside part listed).trans ?_, items, ?_, read⟩
      · exact ((List.dropWhile_suffix isBlank).trans (suffix_of_skipBlank opens)).isInfix
      · exact (reads_bracketed readTree_items opens further reads).read? blank

end JobGraph.Json
