import JobGraph.Proofs.Containers
import JobGraph.Proofs.Json.Numerals
import JobGraph.Proofs.Json.Strings

/-!
# Values read back

The text of a value is read as the tree of that value (`read?_write`), and the tree as the value
itself, exactly when the value nests no deeper than the reader allows (`valueWithin?_tree`).

A value is held when its numbers fit the formats of numbers.  What the reader cannot give back is an
object whose members are out of order or whose first key is the one that marks a text in place of a
value; `Plain` leaves these out.
-/

namespace JobGraph.Json

namespace Value

/-! ## What can be read back -/

mutual

/-- Every number of a value fits its format. -/
def Held : Value → Prop
  | .int n => minimumInt ≤ n ∧ n ≤ maximumInt
  | .float x => x.isFinite
  | .arr items => HeldItems items
  | .obj members => HeldMembers members
  | _ => True

def HeldItems : List Value → Prop
  | [] => True
  | item :: rest => Held item ∧ HeldItems rest

def HeldMembers : List (String × Value) → Prop
  | [] => True
  | (_, value) :: rest => Held value ∧ HeldMembers rest

end

mutual

/-- No object starts with the key that marks a text in place of a value. -/
def Unmarked : Value → Prop
  | .arr items => UnmarkedItems items
  | .obj members => (∀ member ∈ members.head?, member.1 ≠ rawKey) ∧ UnmarkedMembers members
  | _ => True

def UnmarkedItems : List Value → Prop
  | [] => True
  | item :: rest => Unmarked item ∧ UnmarkedItems rest

def UnmarkedMembers : List (String × Value) → Prop
  | [] => True
  | (_, value) :: rest => Unmarked value ∧ UnmarkedMembers rest

end

theorem heldMembers_iff {members : List (String × Value)} :
    HeldMembers members ↔ ∀ member ∈ members, member.2.Held := by
  induction members with
  | nil => simp [HeldMembers]
  | cons head rest inductionHypothesis =>
    rw [HeldMembers, inductionHypothesis, List.forall_mem_cons]

theorem depthMembers_le_iff {members : List (String × Value)} {room : Nat} :
    depthMembers members ≤ room ↔ ∀ member ∈ members, member.2.depth ≤ room := by
  induction members with
  | nil => simp [depthMembers]
  | cons head rest inductionHypothesis =>
    rw [depthMembers, Nat.max_le, inductionHypothesis, List.forall_mem_cons]

/-- A value that can be read back. -/
structure Plain (value : Value) : Prop where
  held : value.Held
  sorted : value.Sorted
  unmarked : value.Unmarked

/-! ## The tree of a value -/

mutual

/-- The text of a value as a tree. -/
def tree : Value → Tree
  | .null => .null
  | .bool flag => .bool flag
  | .int n => .number (.ofInt n)
  | .float x => .number (.ofFloat x)
  | .str text => .str (some text)
  | .arr items => .arr (treeItems items)
  | .obj members => .obj (treeMembers members)

def treeItems : List Value → List Tree
  | [] => []
  | item :: rest => tree item :: treeItems rest

def treeMembers : List (String × Value) → List (Option String × Tree)
  | [] => []
  | (key, value) :: rest => (some key, tree value) :: treeMembers rest

end

@[simp]
theorem tree_bool (flag : Bool) : (Value.bool flag).tree = .bool flag := rfl

@[simp]
theorem tree_int (n : Int) : (Value.int n).tree = .number (.ofInt n) := rfl

@[simp]
theorem tree_str (text : String) : (Value.str text).tree = .str (some text) := rfl

mutual

/-- How many calls of the reader a value takes. -/
def calls : Value → Nat
  | .arr items => callsItems items + 1
  | .obj members => callsMembers members + 1
  | _ => 1

def callsItems : List Value → Nat
  | [] => 0
  | item :: rest => calls item + callsItems rest + 1

def callsMembers : List (String × Value) → Nat
  | [] => 0
  | (_, value) :: rest => calls value + callsMembers rest + 1

end

/-! ## The text of a value -/

mutual

/-- A value is written in front of what follows. -/
theorem write_append (first second : List Char) :
    ∀ value : Value, value.write (first ++ second) = value.write first ++ second
  | .null | .bool true | .bool false => rfl
  | .int n => by simp only [write, List.append_assoc]
  | .float x => by simp only [write, List.append_assoc]
  | .str text => by simp only [write, writeString_eq, quotedEnd_append, List.cons_append]
  | .arr items => by
    simp only [write, List.cons_append]
    rw [← List.cons_append, writeItems_append (']' :: first) second items]
  | .obj members => by
    simp only [write, List.cons_append]
    rw [← List.cons_append, writeMembers_append ('}' :: first) second members]

theorem writeItems_append (first second : List Char) :
    ∀ items : List Value, writeItems items (first ++ second) = writeItems items first ++ second
  | [] => rfl
  | [item] => by simpa [writeItems] using write_append first second item
  | item :: other :: rest => by
    have others := writeItems_append first second (other :: rest)
    have here := write_append (',' :: writeItems (other :: rest) first) second item
    simp only [writeItems, List.isEmpty_cons, Bool.false_eq_true, if_false] at others here ⊢
    rw [others, ← List.cons_append, here]

theorem writeMembers_append (first second : List Char) :
    ∀ members : List (String × Value),
      writeMembers members (first ++ second) = writeMembers members first ++ second
  | [] => rfl
  | [(key, value)] => by
    have here := write_append first second value
    simp only [writeMembers, List.isEmpty_nil, if_true, writeString_eq, here, List.cons_append,
      ← quotedEnd_append]
  | (key, value) :: other :: rest => by
    have others := writeMembers_append first second (other :: rest)
    have here := write_append (',' :: writeMembers (other :: rest) first) second value
    simp only [writeMembers, List.isEmpty_cons, Bool.false_eq_true, if_false, writeString_eq,
      List.cons_append, ← quotedEnd_append] at others here ⊢
    rw [others, here]

end

/-! ## Reading the text of a value -/

theorem skipBlank_eq {text : List Char} (visible : ∀ c ∈ text.head?, isBlank c = false) :
    skipBlank text = text := by
  cases text with
  | nil => rfl
  | cons c rest =>
    have first := visible c rfl
    simp [skipBlank, first]

theorem head_numeral {numeral : Numeral} (valid : numeral.Valid) (rest : List Char) :
    ∃ c others, numeral.write ++ rest = c :: others ∧ (c = '-' ∨ c.isDigit = true) := by
  obtain ⟨negative, whole, fraction, exponent⟩ := numeral
  obtain ⟨digits, some_, -, -⟩ := valid
  cases negative with
  | true => exact ⟨'-', _, rfl, Or.inl rfl⟩
  | false =>
    cases whole with
    | nil => exact absurd rfl some_
    | cons first others => exact ⟨first, _, rfl, Or.inr (digits first List.mem_cons_self)⟩

theorem visible_of_numeral {c : Char} (numeral : c = '-' ∨ c.isDigit = true) :
    isBlank c = false ∧ c ≠ ']' := by
  refine ⟨?_, ?_⟩
  · by_cases blank : c = ' ' ∨ c = '\t' ∨ c = '\n' ∨ c = '\r'
    · rcases blank with rfl | rfl | rfl | rfl <;> exact absurd numeral (by decide)
    · simp only [not_or] at blank
      simp [isBlank, blank]
  · rintro rfl
    exact absurd numeral (by decide)

/-- The text of a value starts with a character that is neither a blank nor the end of an array. -/
theorem head_write {value : Value} (held : value.Held) (rest : List Char) :
    ∀ c ∈ (value.write rest).head?, isBlank c = false ∧ c ≠ ']' := by
  have numeral : ∀ {numeral : Numeral}, numeral.Valid →
      ∀ c ∈ (numeral.write ++ rest).head?, isBlank c = false ∧ c ≠ ']' := by
    intro numeral valid c mem
    obtain ⟨first, others, same, kind⟩ := head_numeral valid rest
    obtain rfl : first = c := by simpa [same] using mem
    exact visible_of_numeral kind
  cases value with
  | int n => simpa only [write, ← Numeral.write_ofInt] using numeral (Numeral.valid_ofInt n)
  | float x =>
    simpa only [write, ← Numeral.write_ofFloat held] using numeral (Numeral.valid_ofFloat x)
  | bool flag => cases flag <;> rintro c ⟨rfl⟩ <;> decide
  | _ => rintro c ⟨rfl⟩; decide

theorem head_writeItems {item : Value} (held : item.Held) (others : List Value)
    (rest : List Char) :
    ∀ c ∈ (writeItems (item :: others) rest).head?, isBlank c = false ∧ c ≠ ']' :=
  head_write held _

theorem readTree_numeral {numeral : Numeral} (valid : numeral.Valid) {rest : List Char}
    (stop : EndsNumber rest) (fuel : Nat) :
    readTree (fuel + 1) (numeral.write ++ rest) = some (.number numeral, rest) := by
  have read := readNumeral_write valid stop
  obtain ⟨first, others, same, kind⟩ := head_numeral valid rest
  have skipped : skipBlank (first :: others) = first :: others :=
    skipBlank_eq (by rintro c ⟨rfl⟩; exact (visible_of_numeral kind).1)
  rw [same] at read ⊢
  rw [readTree, skipped]
  split
  case h_7 => simp only [read, Option.map_some]
  all_goals next head => exact absurd ((List.cons.inj head).1 ▸ kind) (by decide)

theorem endsNumber_cons {c : Char} (digit : c.isDigit = false) (point : c ≠ '.') (lower : c ≠ 'e')
    (upper : c ≠ 'E') (rest : List Char) : EndsNumber (c :: rest) := by
  rintro _ ⟨rfl⟩
  exact ⟨digit, point, lower, upper⟩

theorem skipBlank_cons {c : Char} (visible : isBlank c = false) (rest : List Char) :
    skipBlank (c :: rest) = c :: rest :=
  skipBlank_eq (by rintro _ ⟨rfl⟩; exact visible)

/-! ### One step of the reader -/

theorem readTree_bracket {text : List Char}
    (visible : ∀ c ∈ text.head?, isBlank c = false ∧ c ≠ ']') (fuel : Nat) :
    readTree (fuel + 1) ('[' :: text) =
      (readItems fuel text).map fun (items, after) => (.arr items, after) := by
  have skipped := skipBlank_eq fun c mem => (visible c mem).1
  simp only [readTree, skipBlank_cons (c := '[') rfl, skipped]
  split
  next after => exact absurd rfl (visible ']' rfl).2
  next => rfl

theorem readTree_brace (text : List Char) (fuel : Nat) :
    readTree (fuel + 1) ('{' :: '"' :: text) =
      (readMembers fuel ('"' :: text)).map fun (members, after) => (.obj members, after) := by
  simp [readTree, skipBlank_cons (c := '{') rfl, skipBlank_cons (c := '"') rfl]

theorem readItems_last {fuel : Nat} {text rest : List Char} {item : Tree}
    (read : readTree fuel text = some (item, ']' :: rest)) :
    readItems (fuel + 1) text = some ([item], rest) := by
  simp only [readItems, read, skipBlank_cons (c := ']') rfl]

theorem readItems_comma {fuel : Nat} {text rest : List Char} {item : Tree}
    (read : readTree fuel text = some (item, ',' :: rest)) :
    readItems (fuel + 1) text =
      (readItems fuel rest).map fun (items, after) => (item :: items, after) := by
  simp only [readItems, read, skipBlank_cons (c := ',') rfl]

theorem readMembers_last {fuel : Nat} {key : String} {text rest : List Char} {value : Tree}
    (read : readTree fuel text = some (value, '}' :: rest)) :
    readMembers (fuel + 1) ('"' :: quotedEnd key (':' :: text)) =
      some ([(some key, value)], rest) := by
  simp only [readMembers, skipBlank_cons (c := '"') rfl, readString_quotedEnd,
    skipBlank_cons (c := ':') rfl, read, skipBlank_cons (c := '}') rfl]

theorem readMembers_comma {fuel : Nat} {key : String} {text rest : List Char} {value : Tree}
    (read : readTree fuel text = some (value, ',' :: rest)) :
    readMembers (fuel + 1) ('"' :: quotedEnd key (':' :: text)) =
      (readMembers fuel rest).map fun (members, after) =>
        ((some key, value) :: members, after) := by
  simp only [readMembers, skipBlank_cons (c := '"') rfl, readString_quotedEnd,
    skipBlank_cons (c := ':') rfl, read, skipBlank_cons (c := ',') rfl]

theorem endsNumber_bracket (rest : List Char) : EndsNumber (']' :: rest) :=
  endsNumber_cons (by decide) (by decide) (by decide) (by decide) rest

theorem endsNumber_brace (rest : List Char) : EndsNumber ('}' :: rest) :=
  endsNumber_cons (by decide) (by decide) (by decide) (by decide) rest

theorem endsNumber_comma (rest : List Char) : EndsNumber (',' :: rest) :=
  endsNumber_cons (by decide) (by decide) (by decide) (by decide) rest

/-! ### The whole value -/

mutual

/-- The text of a value is read as its tree, and what follows it is left. -/
theorem readTree_write : ∀ (value : Value) (fuel : Nat) (rest : List Char), value.Held →
    value.calls ≤ fuel → EndsNumber rest →
      readTree fuel (value.write rest) = some (value.tree, rest)
  | .null, fuel + 1, rest, _, _, _ => by simp [write, tree, readTree, skipBlank_cons, isBlank]
  | .bool true, fuel + 1, rest, _, _, _ => by
    simp [write, tree, readTree, skipBlank_cons, isBlank]
  | .bool false, fuel + 1, rest, _, _, _ => by
    simp [write, tree, readTree, skipBlank_cons, isBlank]
  | .int n, fuel + 1, rest, _, _, stop => by
    rw [write, ← Numeral.write_ofInt, tree]
    exact readTree_numeral (Numeral.valid_ofInt n) stop fuel
  | .float x, fuel + 1, rest, held, _, stop => by
    rw [write, ← Numeral.write_ofFloat held, tree]
    exact readTree_numeral (Numeral.valid_ofFloat x) stop fuel
  | .str text, fuel + 1, rest, _, _, _ => by
    simp [write, tree, readTree, writeString_eq, skipBlank_cons, isBlank, readString_quotedEnd]
  | .arr [], fuel + 1, rest, _, _, _ => by
    simp [write, writeItems, tree, treeItems, readTree, skipBlank_cons, isBlank]
  | .arr (item :: others), fuel + 1, rest, held, enough, _ => by
    have read := readItems_write item others fuel rest held (by simp only [calls] at enough; omega)
    rw [write, tree, readTree_bracket (head_writeItems held.1 others _), read]
    rfl
  | .obj [], fuel + 1, rest, _, _, _ => by
    simp [write, writeMembers, tree, treeMembers, readTree, skipBlank_cons, isBlank]
  | .obj ((key, value) :: others), fuel + 1, rest, held, enough, _ => by
    have read := readMembers_write key value others fuel rest held
      (by simp only [calls] at enough; omega)
    rw [writeMembers, writeString_eq] at read
    rw [write, writeMembers, writeString_eq, tree, readTree_brace, read]
    rfl

theorem readItems_write : ∀ (item : Value) (others : List Value) (fuel : Nat) (rest : List Char),
    HeldItems (item :: others) → callsItems (item :: others) ≤ fuel →
      readItems fuel (writeItems (item :: others) (']' :: rest)) =
        some (treeItems (item :: others), rest)
  | item, [], fuel + 1, rest, held, enough => by
    have read := readTree_write item fuel (']' :: rest) held.1
      (by simp only [callsItems] at enough; omega) (endsNumber_bracket rest)
    exact readItems_last read
  | item, other :: others, fuel + 1, rest, held, enough => by
    have read := readTree_write item fuel (',' :: writeItems (other :: others) (']' :: rest)) held.1
      (by simp only [callsItems] at enough; omega) (endsNumber_comma _)
    have readOthers := readItems_write other others fuel rest held.2
      (by simp only [callsItems] at enough ⊢; omega)
    exact (readItems_comma read).trans (by rw [readOthers]; rfl)

theorem readMembers_write : ∀ (key : String) (value : Value) (others : List (String × Value))
    (fuel : Nat) (rest : List Char), HeldMembers ((key, value) :: others) →
      callsMembers ((key, value) :: others) ≤ fuel →
        readMembers fuel (writeMembers ((key, value) :: others) ('}' :: rest)) =
          some (treeMembers ((key, value) :: others), rest)
  | key, value, [], fuel + 1, rest, held, enough => by
    have read := readTree_write value fuel ('}' :: rest) held.1
      (by simp only [callsMembers] at enough; omega) (endsNumber_brace rest)
    exact readMembers_last read
  | key, value, (nextKey, next) :: others, fuel + 1, rest, held, enough => by
    have read := readTree_write value fuel
      (',' :: writeMembers ((nextKey, next) :: others) ('}' :: rest)) held.1
      (by simp only [callsMembers] at enough; omega) (endsNumber_comma _)
    have readOthers := readMembers_write nextKey next others fuel rest held.2
      (by simp only [callsMembers] at enough ⊢; omega)
    exact (readMembers_comma read).trans (by rw [readOthers]; rfl)

end

/-! ## Reading whole texts -/

mutual

/-- The calls that a value takes are no more than its text allows. -/
theorem calls_le_length : ∀ (value : Value) (rest : List Char), value.Held →
    value.calls + 2 * rest.length ≤ 2 * (value.write rest).length
  | .null, rest, _ => by simp only [calls, write, List.length_cons]; omega
  | .bool true, rest, _ => by simp only [calls, write, List.length_cons]; omega
  | .bool false, rest, _ => by simp only [calls, write, List.length_cons]; omega
  | .int n, rest, _ => by
    obtain ⟨c, others, same, -⟩ := head_numeral (Numeral.valid_ofInt n) []
    rw [List.append_nil, Numeral.write_ofInt] at same
    simp only [calls, write, same, List.length_append, List.length_cons]
    omega
  | .float x, rest, held => by
    obtain ⟨c, others, same, -⟩ := head_numeral (Numeral.valid_ofFloat x) []
    rw [List.append_nil, Numeral.write_ofFloat held] at same
    simp only [calls, write, same, List.length_append, List.length_cons]
    omega
  | .str text, rest, _ => by
    have length := length_quotedEnd text rest
    simp only [calls, write, writeString_eq, List.length_cons]
    omega
  | .arr items, rest, held => by
    have within := callsItems_le_length items (']' :: rest) held
    simp only [calls, write, List.length_cons] at within ⊢
    omega
  | .obj members, rest, held => by
    have within := callsMembers_le_length members ('}' :: rest) held
    simp only [calls, write, List.length_cons] at within ⊢
    omega

theorem callsItems_le_length : ∀ (items : List Value) (rest : List Char), HeldItems items →
    callsItems items + 2 * rest.length ≤ 2 * (writeItems items rest).length + 1
  | [], rest, _ => by simp only [callsItems, writeItems]; omega
  | [item], rest, held => by
    have within := calls_le_length item rest held.1
    simp only [callsItems, writeItems, List.isEmpty_nil, if_true]
    omega
  | item :: other :: others, rest, held => by
    have here := calls_le_length item (',' :: writeItems (other :: others) rest) held.1
    have within := callsItems_le_length (other :: others) rest held.2
    rw [writeItems, List.isEmpty_cons, if_neg Bool.false_ne_true, callsItems]
    rw [List.length_cons] at here
    omega

theorem callsMembers_le_length : ∀ (members : List (String × Value)) (rest : List Char),
    HeldMembers members →
      callsMembers members + 2 * rest.length ≤ 2 * (writeMembers members rest).length + 1
  | [], rest, _ => by simp only [callsMembers, writeMembers]; omega
  | [(key, value)], rest, held => by
    have within := calls_le_length value rest held.1
    have length := length_quotedEnd key (':' :: value.write rest)
    simp only [callsMembers, writeMembers, List.isEmpty_nil, if_true, writeString_eq,
      List.length_cons] at length ⊢
    omega
  | (key, value) :: other :: others, rest, held => by
    have here := calls_le_length value (',' :: writeMembers (other :: others) rest) held.1
    have within := callsMembers_le_length (other :: others) rest held.2
    have length := length_quotedEnd key
      (':' :: value.write (',' :: writeMembers (other :: others) rest))
    rw [writeMembers, List.isEmpty_cons, if_neg Bool.false_ne_true, writeString_eq, callsMembers]
    simp only [List.length_cons] at here length ⊢
    omega

end

/-- The text of a value is read as its tree. -/
theorem read?_write (value : Value) (held : value.Held) :
    Tree.read? (value.write []) = some value.tree := by
  have enough := calls_le_length value [] held
  have read := readTree_write value (readingFuel (value.write [])) [] held
    (by unfold readingFuel; omega) (by simp [EndsNumber])
  rw [Tree.read?, read]
  rfl

/-! ## From trees to values -/

section Values

variable (raw? : String → Option Value)

mutual

/-- The tree of a value has that value, unless it nests too deep. -/
theorem valueWith?_tree : ∀ (value : Value) (room : Nat), value.Held → value.Sorted →
    value.Unmarked →
      value.tree.valueWith? raw? room = if value.depth ≤ room then some value else none
  | .null, room, _, _, _ => rfl
  | .bool flag, room, _, _, _ => rfl
  | .int n, room, held, _, _ => Numeral.value?_ofInt held.1 held.2
  | .float x, room, held, _, _ => Numeral.value?_ofFloat held
  | .str text, room, _, _, _ => rfl
  | .arr items, 0, _, _, _ => rfl
  | .arr items, room + 1, held, sorted, unmarked => by
    have read := itemsWith?_tree items room held sorted unmarked
    simp only [tree, Tree.valueWith?, Nat.succ_ne_zero, if_false, Nat.add_sub_cancel, read, depth,
      Nat.add_le_add_iff_right]
    split <;> rfl
  | .obj members, 0, _, _, _ => rfl
  | .obj members, room + 1, held, sorted, unmarked => by
    have read := membersWith?_tree members room [] held sorted.2 unmarked.2 sorted.1
    have plain : Tree.isRaw (treeMembers members) = false := by
      cases members with
      | nil => rfl
      | cons member others =>
        obtain ⟨key, value⟩ := member
        simpa [treeMembers, Tree.isRaw] using unmarked.1 _ rfl
    simp only [tree, Tree.valueWith?, Nat.succ_ne_zero, if_false, Nat.add_sub_cancel, plain,
      Bool.false_eq_true, read, depth, Nat.add_le_add_iff_right, List.nil_append]
    split <;> rfl

theorem itemsWith?_tree : ∀ (items : List Value) (room : Nat), HeldItems items →
    SortedItems items → UnmarkedItems items →
      Tree.itemsWith? raw? room (treeItems items) =
        if depthItems items ≤ room then some items else none
  | [], room, _, _, _ => rfl
  | item :: others, room, held, sorted, unmarked => by
    have first := valueWith?_tree item room held.1 sorted.1 unmarked.1
    have rest := itemsWith?_tree others room held.2 sorted.2 unmarked.2
    simp only [treeItems, Tree.itemsWith?, first, rest, depthItems, Nat.max_le]
    by_cases here : item.depth ≤ room <;> by_cases there : depthItems others ≤ room <;>
      simp [here, there]

theorem membersWith?_tree : ∀ (members : List (String × Value)) (room : Nat)
    (known : List (String × Value)), HeldMembers members → SortedMembers members →
      UnmarkedMembers members → Entries.Ordered (known ++ members) →
        Tree.membersWith? raw? room (treeMembers members) known =
          if depthMembers members ≤ room then some (known ++ members) else none
  | [], room, known, _, _, _, _ => by
    simp [treeMembers, Tree.membersWith?, depthMembers]
  | (key, value) :: others, room, known, held, sorted, unmarked, ordered => by
    have first := valueWith?_tree value room held.1 sorted.1 unmarked.1
    have moved : known ++ (key, value) :: others = known ++ [(key, value)] ++ others := by simp
    rw [moved] at ordered ⊢
    -- The keys ascend, so each member is inserted behind those that are known.
    have inserted := Entries.insert_last (List.pairwise_append.1 ordered).1
    have rest := membersWith?_tree others room (known ++ [(key, value)]) held.2 sorted.2 unmarked.2
      ordered
    simp only [treeMembers, Tree.membersWith?, first, depthMembers, Nat.max_le]
    by_cases here : value.depth ≤ room
    · simp only [here, if_true, inserted, rest, true_and]
    · simp [here]

end

end Values

/-- The tree of a plain value has that value exactly if it nests no deeper than there is room. -/
theorem Plain.valueWithin?_tree {value : Value} (plain : value.Plain) (room : Nat) :
    value.tree.valueWithin? room = if value.depth ≤ room then some value else none :=
  valueWith?_tree _ value room plain.held plain.sorted plain.unmarked

theorem Plain.value?_tree {value : Value} (plain : value.Plain) :
    value.tree.value? = if value.depth ≤ maximumDepth then some value else none :=
  plain.valueWithin?_tree maximumDepth

mutual

/-- A tree of held numbers is held as a whole exactly if it nests no deeper than there is room. -/
theorem holdsWithin_tree : ∀ (value : Value) (room : Nat), value.Held →
    value.tree.holdsWithin room = decide (value.depth ≤ room)
  | .null, room, _ => by simp [tree, Tree.holdsWithin, depth]
  | .bool flag, room, _ => by simp [tree, Tree.holdsWithin, depth]
  | .int n, room, held => by
    simp [tree, Tree.holdsWithin, depth, Numeral.value?_ofInt held.1 held.2]
  | .float x, room, held => by
    have held' : x.isFinite = true := held
    simp [tree, Tree.holdsWithin, depth, Numeral.value?_ofFloat held']
  | .str text, room, _ => by simp [tree, Tree.holdsWithin, depth]
  | .arr items, 0, _ => by simp [tree, Tree.holdsWithin, depth]
  | .arr items, room + 1, held => by
    simp [tree, Tree.holdsWithin, depth, itemsHoldWithin_tree items room held]
  | .obj members, 0, _ => by simp [tree, Tree.holdsWithin, depth]
  | .obj members, room + 1, held => by
    simp [tree, Tree.holdsWithin, depth, membersHoldWithin_tree members room held]

theorem itemsHoldWithin_tree : ∀ (items : List Value) (room : Nat), HeldItems items →
    Tree.itemsHoldWithin room (treeItems items) = decide (depthItems items ≤ room)
  | [], room, _ => by simp [treeItems, Tree.itemsHoldWithin, depthItems]
  | item :: others, room, held => by
    simp [treeItems, Tree.itemsHoldWithin, depthItems, holdsWithin_tree item room held.1,
      itemsHoldWithin_tree others room held.2]

theorem membersHoldWithin_tree : ∀ (members : List (String × Value)) (room : Nat),
    HeldMembers members →
      Tree.membersHoldWithin room (treeMembers members) = decide (depthMembers members ≤ room)
  | [], room, _ => by simp [treeMembers, Tree.membersHoldWithin, depthMembers]
  | (key, value) :: others, room, held => by
    simp [treeMembers, Tree.membersHoldWithin, depthMembers, holdsWithin_tree value room held.1,
      membersHoldWithin_tree others room held.2]

end

/-- A plain value is read back from its text exactly if it nests no deeper than the reader
allows. -/
theorem Plain.read?_write {value : Value} (plain : value.Plain) :
    Value.read? (value.write []) =
      if value.depth ≤ maximumDepth then some value else none := by
  rw [Value.read?, Value.read?_write value plain.held, Option.bind_some, plain.value?_tree]

/-- A value with texts that need escapes, with the least number below zero, and with the key of a
text in place of a value, which does not come first. -/
def awkward : Value :=
  .obj [("", .float (.ofMagnitude true 1)), (rawKey, .arr [.str "\r\n\x1e\"\\", .obj []])]

theorem plain_awkward : awkward.Plain where
  held := by
    have finite : (Binary64.ofMagnitude true 1).isFinite = true := by decide
    exact ⟨finite, ⟨trivial, trivial, trivial⟩, trivial⟩
  sorted := by
    have ordered : "" < rawKey := by decide
    refine ⟨?_, trivial, ⟨trivial, ⟨List.Pairwise.nil, trivial⟩, trivial⟩, trivial⟩
    simpa [Entries.Ordered] using ordered
  unmarked := by
    have other : "" ≠ rawKey := by decide
    exact ⟨by simpa using other, trivial, ⟨trivial, ⟨by simp, trivial⟩, trivial⟩, trivial⟩

end Value

end JobGraph.Json
