import JobGraph.Proofs.Containers
import JobGraph.Run.Store
import Mathlib.Data.List.Induction

/-!
# What writes leave in a store

Writes are carried out one after the other, so under each key there is what the last write to it has
left (`Store.after?`).  `Store.Becomes` says this of a store without carrying anything out, and
`Store.becomes_iff` that no other store is left by the writes than the one in which they have been
carried out.
-/

namespace JobGraph

open Json (Value)

namespace StoreWrite

/-- What a write leaves under its key. -/
def value? : StoreWrite → Option Value
  | .set _ value => some value
  | .remove _ => none

theorem find?_apply (store : Store) (write : StoreWrite) (key : String) :
    (write.apply store).find? key = if key = write.key then write.value? else store.find? key := by
  cases write with
  | set written value => exact KeyMap.find?_insert store written key value
  | remove removed => exact KeyMap.find?_erase store removed key

end StoreWrite

namespace Store

/-- What is under a key after some writes to a store: what the last write to the key has left, and
what the store had if there is none. -/
def after? (store : Store) (writes : List StoreWrite) (key : String) : Option Value :=
  (writes.filter fun write => write.key = key).getLast?.elim (store.find? key) StoreWrite.value?

variable {store now : Store} {writes : List StoreWrite} {key : String}

theorem after?_of_unwritten (unwritten : ∀ write ∈ writes, write.key ≠ key) :
    store.after? writes key = store.find? key := by
  have none_ : writes.filter (fun write => write.key = key) = [] :=
    List.filter_eq_nil_iff.2 fun write listed => by simpa using unwritten write listed
  rw [after?, none_]
  rfl

theorem after?_of_last {front back : List StoreWrite} {write : StoreWrite}
    (last : ∀ later ∈ back, later.key ≠ write.key) :
    store.after? (front ++ write :: back) write.key = write.value? := by
  have none_ : back.filter (fun later => later.key = write.key) = [] :=
    List.filter_eq_nil_iff.2 fun later listed => by simpa using last later listed
  rw [after?, List.filter_append, List.filter_cons_of_pos (by simp), none_, List.getLast?_concat]
  rfl

theorem merge_append (store : Store) (front back : List StoreWrite) :
    store.merge (front ++ back) = (store.merge front).merge back := List.foldl_append

theorem merge_concat (store : Store) (front : List StoreWrite) (write : StoreWrite) :
    store.merge (front ++ [write]) = write.apply (store.merge front) := merge_append store front _

/-- Writes that are carried out in their order leave under each key what the last of them says. -/
theorem find?_merge (store : Store) (writes : List StoreWrite) (key : String) :
    (store.merge writes).find? key = store.after? writes key := by
  induction writes using List.reverseRecOn with
  | nil => rfl
  | append_singleton front write inductionHypothesis =>
    rw [merge_concat, StoreWrite.find?_apply]
    by_cases own : write.key = key
    · subst own
      rw [if_pos rfl, after?_of_last (List.forall_mem_nil _)]
    · have others : (front ++ [write]).filter (fun write => write.key = key) =
          front.filter fun write => write.key = key := by
        rw [List.filter_append, List.filter_cons_of_neg (by simpa using own), List.filter_nil,
          List.append_nil]
      rw [if_neg (Ne.symm own), inductionHypothesis, after?, after?, others]

/-! ## Stores that writes lead to -/

/-- The store is what some writes make of an earlier one: under each key there is what the last of
them to the key has left, and what was there before if there is none. -/
def Becomes (store : Store) (writes : List StoreWrite) (now : Store) : Prop :=
  ∀ key, now.find? key = store.after? writes key

theorem becomes_merge (store : Store) (writes : List StoreWrite) :
    store.Becomes writes (store.merge writes) :=
  store.find?_merge writes

theorem becomes_iff : store.Becomes writes now ↔ now = store.merge writes := by
  constructor
  · exact fun becomes => KeyMap.ext_find? fun key =>
      (becomes key).trans (store.find?_merge writes key).symm
  · rintro rfl
    exact store.becomes_merge writes

theorem Becomes.merge (becomes : store.Becomes writes now) (more : List StoreWrite) :
    store.Becomes (writes ++ more) (now.merge more) := by
  rw [becomes_iff] at becomes ⊢
  rw [becomes, merge_append]

/-- A write shows in a store: under its key there is what it has left, or what a later one of the
writes has left that has gone over it. -/
def Shows (now : Store) (writes : List StoreWrite) (write : StoreWrite) : Prop :=
  ∃ front last back, writes = front ++ last :: back ∧ write ∈ front ++ [last] ∧
    last.key = write.key ∧ now.find? write.key = last.value?

/-- The last of some writes to a key is one of them, and none to that key comes after it. -/
theorem exists_last {write : StoreWrite} (written : write ∈ writes) :
    ∃ front last back, writes = front ++ last :: back ∧ write ∈ front ++ [last] ∧
      last.key = write.key ∧ ∀ later ∈ back, later.key ≠ write.key := by
  induction writes using List.reverseRecOn with
  | nil => cases written
  | append_singleton front last inductionHypothesis =>
    by_cases own : last.key = write.key
    · exact ⟨front, last, [], rfl, written, own, List.forall_mem_nil _⟩
    · have earlier : write ∈ front := by
        rcases List.mem_append.1 written with earlier | same
        · exact earlier
        · exact absurd (congrArg StoreWrite.key (List.mem_singleton.1 same).symm) own
      obtain ⟨before, found, back, rfl, listed, same, others⟩ := inductionHypothesis earlier
      refine ⟨before, found, back ++ [last], by simp, listed, same, ?_⟩
      intro later member
      rcases List.mem_append.1 member with inside | isLast
      · exact others later inside
      · exact List.mem_singleton.1 isLast ▸ own

/-- Every one of the writes shows in the store that they lead to. -/
theorem Becomes.shows (becomes : store.Becomes writes now) {write : StoreWrite}
    (written : write ∈ writes) : now.Shows writes write := by
  obtain ⟨front, last, back, parts, listed, same, others⟩ := exists_last written
  refine ⟨front, last, back, parts, listed, same, ?_⟩
  rw [becomes, parts, ← same]
  exact after?_of_last (same ▸ others)

end Store

end JobGraph
