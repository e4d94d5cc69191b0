import Mathlib.Data.List.Nodup
import Mathlib.Data.List.Perm.Basic
import SchemaShapes.Json.Basic
import SchemaShapes.Proofs.Outcome

/-!
# Entries of objects

Where no key is repeated, sorting keeps every entry, and the value of a key is that of its entry.

* `sortEntries_perm`: entries of different keys are only put into another order.
* `mem_of_mem_sortEntries`: also where keys are repeated, no entry is added.
* `entry?_eq_some`, `entry?_eq_none`: what is found in an object.
-/

namespace SchemaShapes.Json

variable {α : Type}

/-- The keys of entries. -/
def keys (entries : List (String × α)) : List String := entries.map Prod.fst

/-- Entries of different keys drop nothing. -/
theorem foldr_dropRepeats {entries : List (String × α)} (h : (keys entries).Nodup) :
    entries.foldr
      (fun e rest =>
        match rest with
        | [] => [e]
        | f :: _ => if e.1 = f.1 then rest else e :: rest) [] = entries := by
  induction entries with
  | nil => rfl
  | cons e entries ih =>
    obtain ⟨hnew, hmore⟩ := List.nodup_cons.1 h
    rw [List.foldr_cons, ih hmore]
    cases entries with
    | nil => rfl
    | cons f entries =>
      have hne : e.1 ≠ f.1 := fun k => hnew (by simp [k])
      exact if_neg hne

/-- **Sorting keeps all entries** if their keys differ. -/
theorem sortEntries_perm {entries : List (String × α)} (h : (keys entries).Nodup) :
    (sortEntries entries).Perm entries := by
  have hsort := List.mergeSort_perm entries fun a b => (compare a.1 b.1).isLE
  have hkeys : (keys (entries.mergeSort fun a b => (compare a.1 b.1).isLE)).Nodup :=
    (hsort.map Prod.fst).nodup_iff.2 h
  have hsame : sortEntries entries = entries.mergeSort fun a b => (compare a.1 b.1).isLE :=
    foldr_dropRepeats hkeys
  rw [hsame]
  exact hsort

/-- Sorting adds no entry. -/
theorem mem_of_mem_sortEntries {entries : List (String × α)} {e : String × α}
    (h : e ∈ sortEntries entries) : e ∈ entries := by
  have hsort : e ∈ entries.mergeSort fun a b => (compare a.1 b.1).isLE := by
    unfold sortEntries at h
    generalize (entries.mergeSort fun a b => (compare a.1 b.1).isLE) = es at h ⊢
    induction es with
    | nil => cases h
    | cons f es ih =>
      rw [List.foldr_cons] at h
      split at h
      · exact List.mem_cons.2 (.inl (List.mem_singleton.1 h))
      · split at h
        · exact List.mem_cons_of_mem f (ih h)
        · rcases List.mem_cons.1 h with rfl | h
          · exact List.mem_cons_self
          · exact List.mem_cons_of_mem f (ih h)
  exact List.mem_mergeSort.1 hsort

/-- **The value of a key** is that of its entry, if the keys differ. -/
theorem entry?_eq_some {entries : List (String × Json)} (h : (keys entries).Nodup) {key : String}
    {j : Json} (hmem : (key, j) ∈ entries) : Json.entry? (.object entries) key = some j := by
  have hkeys : (keys entries.reverse).Nodup := by
    rw [keys, List.map_reverse, List.nodup_reverse]
    exact h
  have hmem' : (key, j) ∈ entries.reverse := List.mem_reverse.2 hmem
  have hfind : entries.reverse.find? (fun e => e.1 == key) = some (key, j) :=
    find?_of_nodup hkeys hmem'
  show (entries.reverse.find? fun e => e.1 == key).map (·.2) = some j
  rw [hfind, Option.map_some]

/-- A key without an entry has no value. -/
theorem entry?_eq_none {entries : List (String × Json)} {key : String} (h : key ∉ keys entries) :
    Json.entry? (.object entries) key = none := by
  have hno : entries.reverse.find? (fun e => e.1 == key) = none := by
    refine List.find?_eq_none.2 fun e he k => h ?_
    rw [beq_iff_eq] at k
    exact List.mem_map.2 ⟨e, List.mem_reverse.1 he, k⟩
  show (entries.reverse.find? fun e => e.1 == key).map (·.2) = none
  rw [hno, Option.map_none]

end SchemaShapes.Json
