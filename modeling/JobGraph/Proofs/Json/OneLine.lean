import JobGraph.Proofs.Json.ReadBack

/-!
# Compact text stands on one line

No character of the compact text of a value comes before the space: numbers are made of digits and a
few signs, and strings escape what comes before the space.  So whatever strings a value holds, its
text has no end of a line in it.
-/

namespace JobGraph.Json

theorem visible_of_isDigit {c : Char} (digit : c.isDigit) : ' ' ≤ c := by
  simp only [Char.isDigit, Bool.and_eq_true, decide_eq_true_eq] at digit
  have low : ' '.val ≤ 48 := by decide
  exact UInt32.le_trans low digit.1

theorem Numeral.visible_of_mem_write {numeral : Numeral} (valid : numeral.Valid) {c : Char}
    (mem : c ∈ numeral.write) : ' ' ≤ c := by
  obtain ⟨negative, whole, fraction, exponent⟩ := numeral
  obtain ⟨digits, -, -, point⟩ := valid
  simp only [Numeral.write, List.mem_append] at mem
  rcases mem with ((sign | front) | decimals) | power
  · cases negative with
    | true =>
      rw [List.mem_singleton.1 sign]
      decide
    | false => cases sign
  · exact visible_of_isDigit (digits c front)
  · cases fraction with
    | none => cases decimals
    | some more =>
      rcases List.mem_cons.1 decimals with rfl | later
      · decide
      · exact visible_of_isDigit ((point more rfl).2 c later)
  · cases exponent with
    | none => cases power
    | some exponent =>
      rcases List.mem_cons.1 power with rfl | later
      · decide
      · rcases List.mem_cons.1 later with same | later
        · rw [same]
          split <;> decide
        · exact visible_of_isDigit (isDigit_of_mem_digitChars later)

theorem visible_hexDigit (n : Nat) : ' ' ≤ hexDigit n := by
  have digits : ∀ n < 16, ' ' ≤ Nat.digitChar n := by decide
  exact digits _ (Nat.mod_lt _ (by decide))

theorem visible_of_shortEscape? {letter c : Char} (short : shortEscape? letter = some c) :
    ' ' ≤ letter := by
  unfold shortEscape? at short
  split at short <;> first | decide | cases short

theorem visible_of_mem_escapeChar {c written : Char} (mem : written ∈ escapeChar c) :
    ' ' ≤ written := by
  obtain ⟨letter, -, short, same⟩ | ⟨-, same⟩ | ⟨-, -, control, same⟩ := escapeChar_cases c
  all_goals rw [same] at mem
  · rcases List.mem_pair.1 mem with rfl | rfl
    · decide
    · exact visible_of_shortEscape? short
  · simp only [List.mem_cons, List.not_mem_nil, or_false] at mem
    rcases mem with rfl | rfl | rfl | rfl | rfl | rfl
    all_goals first | decide | exact visible_hexDigit _
  · rw [List.mem_singleton.1 mem]
    exact Char.not_lt.1 control

theorem visible_of_mem_writeString {text : String} {rest : List Char} {c : Char}
    (mem : c ∈ writeString text rest) : ' ' ≤ c ∨ c ∈ rest := by
  rw [writeString] at mem
  rcases List.mem_cons.1 mem with rfl | inside
  · exact Or.inl (by decide)
  clear mem
  generalize text.toList = characters at inside
  induction characters with
  | nil =>
    rcases List.mem_cons.1 inside with rfl | later
    · exact Or.inl (by decide)
    · exact Or.inr later
  | cons first others inductionHypothesis =>
    rw [List.foldr_cons] at inside
    rcases List.mem_append.1 inside with here | later
    · exact Or.inl (visible_of_mem_escapeChar here)
    · exact inductionHypothesis later

namespace Value

theorem visible_of_mem_cons {first c : Char} (visible : ' ' ≤ first) {text : List Char}
    {P : Prop} (later : c ∈ text → ' ' ≤ c ∨ P) (mem : c ∈ first :: text) : ' ' ≤ c ∨ P := by
  rcases List.mem_cons.1 mem with rfl | other
  · exact Or.inl visible
  · exact later other

mutual

theorem visible_of_mem_write : ∀ (value : Value) (rest : List Char), value.Held →
    ∀ c ∈ value.write rest, ' ' ≤ c ∨ c ∈ rest
  | .null, rest, _, c, mem => by
    simp only [write, List.mem_cons] at mem
    rcases mem with rfl | rfl | rfl | rfl | later
    all_goals first | exact Or.inl (by decide) | exact Or.inr later
  | .bool true, rest, _, c, mem => by
    simp only [write, List.mem_cons] at mem
    rcases mem with rfl | rfl | rfl | rfl | later
    all_goals first | exact Or.inl (by decide) | exact Or.inr later
  | .bool false, rest, _, c, mem => by
    simp only [write, List.mem_cons] at mem
    rcases mem with rfl | rfl | rfl | rfl | rfl | later
    all_goals first | exact Or.inl (by decide) | exact Or.inr later
  | .int n, rest, _, c, mem => by
    rw [write, ← Numeral.write_ofInt] at mem
    exact (List.mem_append.1 mem).imp_left (Numeral.visible_of_mem_write (Numeral.valid_ofInt n))
  | .float x, rest, held, c, mem => by
    rw [write, ← Numeral.write_ofFloat held] at mem
    exact (List.mem_append.1 mem).imp_left (Numeral.visible_of_mem_write (Numeral.valid_ofFloat x))
  | .str text, rest, _, c, mem => visible_of_mem_writeString mem
  | .arr items, rest, held, c, mem => by
    refine visible_of_mem_cons (by decide) (fun inside => ?_) mem
    rcases visible_of_mem_writeItems items _ held c inside with visible | after
    · exact Or.inl visible
    · exact visible_of_mem_cons (by decide) Or.inr after
  | .obj members, rest, held, c, mem => by
    refine visible_of_mem_cons (by decide) (fun inside => ?_) mem
    rcases visible_of_mem_writeMembers members _ held c inside with visible | after
    · exact Or.inl visible
    · exact visible_of_mem_cons (by decide) Or.inr after

theorem visible_of_mem_writeItems : ∀ (items : List Value) (rest : List Char), HeldItems items →
    ∀ c ∈ writeItems items rest, ' ' ≤ c ∨ c ∈ rest
  | [], _, _, _, mem => Or.inr mem
  | item :: others, rest, held, c, mem => by
    rw [writeItems] at mem
    rcases visible_of_mem_write item _ held.1 c mem with visible | after
    · exact Or.inl visible
    · split at after
      · exact Or.inr after
      · exact visible_of_mem_cons (by decide)
          (visible_of_mem_writeItems others rest held.2 c) after

theorem visible_of_mem_writeMembers : ∀ (members : List (String × Value)) (rest : List Char),
    HeldMembers members → ∀ c ∈ writeMembers members rest, ' ' ≤ c ∨ c ∈ rest
  | [], _, _, _, mem => Or.inr mem
  | (key, value) :: others, rest, held, c, mem => by
    rw [writeMembers] at mem
    rcases visible_of_mem_writeString mem with visible | afterKey
    · exact Or.inl visible
    refine visible_of_mem_cons (by decide) (fun inside => ?_) afterKey
    rcases visible_of_mem_write value _ held.1 c inside with visible | after
    · exact Or.inl visible
    · split at after
      · exact Or.inr after
      · exact visible_of_mem_cons (by decide)
          (visible_of_mem_writeMembers others rest held.2 c) after

end

end Value

end JobGraph.Json
