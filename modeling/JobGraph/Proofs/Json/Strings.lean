import JobGraph.Json.Printer
import JobGraph.Json.Tree
import Mathlib.Tactic.SplitIfs

/-!
# Strings read back

A quoted string is read as the text it was written from, whatever characters are in it
(`readString_quotedEnd`).
-/

namespace JobGraph.Json

open Text (hexValue?)

theorem hexValue?_digitChar : ∀ n < 16, hexValue? (Nat.digitChar n) = some n := by decide

/-- A character stands after a backslash under a letter of its own, or by its number, or as it
is. -/
theorem escapeChar_cases (c : Char) :
    (∃ letter, letter ≠ 'u' ∧ shortEscape? letter = some c ∧ escapeChar c = ['\\', letter]) ∨
      (c.toNat < 32 ∧
        escapeChar c = ['\\', 'u', '0', '0', hexDigit (c.toNat / 16), hexDigit c.toNat]) ∨
      (c ≠ '"' ∧ c ≠ '\\' ∧ ¬c < ' ' ∧ escapeChar c = [c]) := by
  unfold escapeChar
  split_ifs with quote backslash backspace tab newline feed carriage control
  · exact Or.inl ⟨'"', by decide, by rw [quote]; rfl, rfl⟩
  · exact Or.inl ⟨'\\', by decide, by rw [backslash]; rfl, rfl⟩
  · exact Or.inl ⟨'b', by decide, backspace ▸ rfl, rfl⟩
  · exact Or.inl ⟨'t', by decide, tab ▸ rfl, rfl⟩
  · exact Or.inl ⟨'n', by decide, newline ▸ rfl, rfl⟩
  · exact Or.inl ⟨'f', by decide, feed ▸ rfl, rfl⟩
  · exact Or.inl ⟨'r', by decide, carriage ▸ rfl, rfl⟩
  · exact Or.inr (Or.inl ⟨control, rfl⟩)
  · exact Or.inr (Or.inr ⟨quote, backslash, control, rfl⟩)

theorem hexValue?_hexDigit (n : Nat) : hexValue? (hexDigit n) = some (n % 16) :=
  hexValue?_digitChar _ (Nat.mod_lt n (by decide))

/-- A character is read as it was written, and nothing of what follows it is touched. -/
theorem readUnits_escapeChar (c : Char) (rest : List Char) :
    readUnits (escapeChar c ++ rest) =
      (readUnits rest).map fun (units, after) => (.scalar c :: units, after) := by
  obtain ⟨letter, other, short, same⟩ | ⟨control, same⟩ | ⟨quote, backslash, control, same⟩ :=
    escapeChar_cases c
  · simp [same, readUnits, short, other]
  · have code : c.toNat / 16 % 16 * 16 + c.toNat % 16 = c.toNat := by omega
    have unit : unitOfCode c.toNat = .scalar c := by
      rw [unitOfCode, if_neg (by omega), Char.ofNat_toNat]
    have zero : hexValue? '0' = some 0 := rfl
    simp [same, readUnits, zero, hexValue?_hexDigit, code, unit]
  · rw [same, List.cons_append, List.nil_append, readUnits]
    · simp [control, backslash]
    all_goals simp_all

theorem readUnits_append (characters rest : List Char) :
    readUnits (characters.foldr (fun c following => escapeChar c ++ following) ('"' :: rest)) =
      some (characters.map .scalar, rest) := by
  induction characters with
  | nil => simp [readUnits]
  | cons c others ih => rw [List.foldr_cons, readUnits_escapeChar, ih]; rfl

theorem joinUnits_map_scalar (characters : List Char) :
    joinUnits (characters.map .scalar) = some characters := by
  induction characters with
  | nil => rfl
  | cons c others ih => rw [List.map_cons, joinUnits, ih]; rfl

/-- The characters of a quoted string after its first quotation mark. -/
def quotedEnd (text : String) (rest : List Char) : List Char :=
  text.toList.foldr (fun c following => escapeChar c ++ following) ('"' :: rest)

theorem writeString_eq (text : String) (rest : List Char) :
    writeString text rest = '"' :: quotedEnd text rest := rfl

theorem readString_quotedEnd (text : String) (rest : List Char) :
    readString (quotedEnd text rest) = some (some text, rest) := by
  have joined := joinUnits_map_scalar text.toList
  rw [readString, quotedEnd, readUnits_append]
  simp only [Option.map_some, joined, String.ofList_toList]

theorem quotedEnd_append (text : String) (first second : List Char) :
    quotedEnd text (first ++ second) = quotedEnd text first ++ second := by
  unfold quotedEnd
  induction text.toList with
  | nil => rfl
  | cons c others ih => rw [List.foldr_cons, List.foldr_cons, ih, List.append_assoc]

theorem length_quotedEnd (text : String) (rest : List Char) :
    rest.length < (quotedEnd text rest).length := by
  unfold quotedEnd
  induction text.toList with
  | nil => exact Nat.lt_succ_self _
  | cons c others ih =>
    rw [List.foldr_cons, List.length_append]
    omega

end JobGraph.Json
