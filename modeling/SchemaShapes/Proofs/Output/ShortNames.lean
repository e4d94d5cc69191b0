import Mathlib.Data.List.Basic
import SchemaShapes.Output.Compact
import SchemaShapes.Proofs.Output.Words

/-!
# Short names expanded

A short name is that of a namespace, a colon and a local name, and it stands for the IRI of the
namespace followed by the local name. No namespace starts with another, so an IRI has one short
name at most, and the order of the namespaces does not matter.

* `compact?_eq_some`: what a short name is made of.
* `isLocalName_cases`: what a local name is made of.
* `iriOf?`: the IRI of a short name.
* `namespaces_split`: an IRI is in one namespace at most.
* `compact?_exact`: which IRIs have a short name, and what it is.
-/

namespace SchemaShapes.Output

open Number (isDigit)

/-- **What a short name is made of.** -/
theorem compact?_eq_some {i : Iri} {s : String} (h : compact? i = some s) :
    ∃ n ∈ namespaces, ∃ cs, isLocalName cs = true ∧ i = n.2 ++ String.ofList cs ∧
      s = n.1 ++ ":" ++ String.ofList cs := by
  obtain ⟨n, hn, hs⟩ := List.exists_of_findSome?_eq_some h
  refine ⟨n, hn, ?_⟩
  cases hp : List.isPrefixOf? n.2.toList i.toList with
  | none => simp [hp] at hs
  | some cs =>
    by_cases hl : isLocalName cs = true
    · have hi : n.2.toList ++ cs = i.toList := List.isPrefixOf?_eq_some_iff_append_eq.1 hp
      refine ⟨cs, hl, ?_, ?_⟩
      · rw [← String.toList_inj, String.toList_append, String.toList_ofList, hi]
      · simpa [hp, hl] using hs.symm
    · simp [hp, hl] at hs

/-- The names of namespaces have no colon, and do not start like labels. -/
theorem namespaces_names : ∀ n ∈ namespaces,
    ':' ∉ n.1.toList ∧ ∃ c cs, n.1.toList = c :: cs ∧ c ≠ '_' := by
  have hall : ∀ n ∈ namespaces, ':' ∉ n.1.toList ∧ n.1.toList.head?.any (· ≠ '_') = true := by
    decide +kernel
  intro n hn
  obtain ⟨hcolon, hhead⟩ := hall n hn
  refine ⟨hcolon, ?_⟩
  cases hc : n.1.toList with
  | nil => simp [hc] at hhead
  | cons c cs => exact ⟨c, cs, rfl, by simpa [hc] using hhead⟩

/-- A local name is of letters, digits and underscores. -/
theorem isLocalChar_cases {c : Char} (h : isLocalChar c = true) :
    isLetter c = true ∨ isDigit c = true ∨ c = '_' := by
  simp only [isLocalChar, Bool.or_eq_true, Bool.and_eq_true, decide_eq_true_eq, beq_iff_eq,
    Char.le_def, UInt32.le_iff_toNat_le] at h
  rcases h with ((h | h) | h) | h
  · have hc : 97 ≤ c.toNat ∧ c.toNat ≤ 122 := h
    exact Or.inl (by simp [isLetter, hc.1, hc.2])
  · have hc : 65 ≤ c.toNat ∧ c.toNat ≤ 90 := h
    exact Or.inl (by simp [isLetter, hc.1, hc.2])
  · refine Or.inr (Or.inl ?_)
    simp only [isDigit, Bool.and_eq_true, decide_eq_true_eq, Char.le_def,
      UInt32.le_iff_toNat_le]
    exact h
  · exact Or.inr (Or.inr h)

theorem isNameChar_of_isLocalChar {c : Char} (h : isLocalChar c = true) : isNameChar c = true := by
  rcases isLocalChar_cases h with h | h | h <;> simp [isNameChar, h]

/-- **What a local name is**: a letter or an underscore, and then letters, digits and
underscores. -/
theorem isLocalName_cases {cs : List Char} (h : isLocalName cs = true) :
    ∃ c more, cs = c :: more ∧ (isLetter c = true ∨ c = '_') ∧
      ∀ d ∈ cs, isLocalChar d = true := by
  cases cs with
  | nil => cases h
  | cons c more =>
    simp only [isLocalName, Bool.and_eq_true, List.all_eq_true, Bool.not_eq_true'] at h
    refine ⟨c, more, rfl, ?_, h.1⟩
    rcases isLocalChar_cases (h.1 c (by simp)) with hc | hc | hc
    · exact Or.inl hc
    · have hno : isDigit c = false := by simpa [isDigit] using h.2
      rw [hno] at hc
      cases hc
    · exact Or.inr hc

/-! ## Local names -/

/-- **A local name**: letters, digits and underscores of ASCII, at least one of them, and the first
is no digit. -/
structure LocalName (l : String) : Prop where
  nonempty : l ≠ ""
  chars : ∀ c ∈ l.toList, c.isAlphanum = true ∨ c = '_'
  head : ∀ c ∈ l.toList.head?, c.isDigit = false

theorem isLocalChar_iff {c : Char} :
    isLocalChar c = true ↔ c.isAlphanum = true ∨ c = '_' := by
  have hclass : c.isAlphanum =
      (decide ('A' ≤ c ∧ c ≤ 'Z') || ('a' ≤ c && c ≤ 'z') || ('0' ≤ c && c ≤ '9')) := rfl
  simp only [isLocalChar, hclass, Bool.or_eq_true, Bool.and_eq_true, decide_eq_true_eq,
    beq_iff_eq]
  tauto

/-- **What the test of local names accepts.** -/
theorem isLocalName_iff {l : String} : isLocalName l.toList = true ↔ LocalName l := by
  cases hl : l.toList with
  | nil =>
    have hempty : l = "" := String.toList_eq_nil_iff.1 hl
    constructor
    · intro h
      cases h
    · intro h
      exact absurd hempty h.nonempty
  | cons c cs =>
    have hempty : l ≠ "" := fun h => by simp [h] at hl
    have hdigit : c.isDigit = ('0' ≤ c && c ≤ '9') := rfl
    simp only [isLocalName, Bool.and_eq_true, List.all_eq_true, Bool.not_eq_true', ← hdigit,
      isLocalChar_iff]
    constructor
    · rintro ⟨hchars, hhead⟩
      exact ⟨hempty, by rwa [hl], by simpa [hl] using hhead⟩
    · intro h
      exact ⟨hl ▸ h.chars, h.head c (by simp [hl])⟩

/-! ## Namespaces -/

/-- No namespace starts with another. -/
theorem namespaces_prefixFree : ∀ m ∈ namespaces, ∀ n ∈ namespaces,
    m.2.toList <+: n.2.toList → m = n := by
  decide +kernel

/-- **An IRI is in one namespace at most**, and what it is called there is its end. -/
theorem namespaces_split {m n : String × Iri} (hm : m ∈ namespaces) (hn : n ∈ namespaces)
    {k l : String} (h : m.2 ++ k = n.2 ++ l) : m = n ∧ k = l := by
  have hchars : m.2.toList ++ k.toList = n.2.toList ++ l.toList := by
    rw [← String.toList_append, ← String.toList_append, h]
  have hmn : m = n := by
    have hmi : m.2.toList <+: n.2.toList ++ l.toList := ⟨k.toList, hchars⟩
    rcases List.prefix_or_prefix_of_prefix hmi (List.prefix_append ..) with hp | hp
    · exact namespaces_prefixFree m hm n hn hp
    · exact (namespaces_prefixFree n hn m hm hp).symm
  subst hmn
  exact ⟨rfl, String.toList_inj.1 (List.append_cancel_left hchars)⟩

/-! ## Short names replaced -/

/-- **The IRI of a short name**: the name before its first colon is replaced by its namespace. -/
def iriOf? (s : String) : Option Iri :=
  match s.toList.dropWhile (· ≠ ':') with
  | ':' :: l =>
    (namespaces.lookup (String.ofList (s.toList.takeWhile (· ≠ ':')))).map (· ++ String.ofList l)
  | _ => none

/-- The first colon of a short name is the one behind the name of the namespace. -/
theorem shortName_split {n : String × Iri} (hn : n ∈ namespaces) (l : String) :
    (n.1 ++ ":" ++ l).toList.takeWhile (· ≠ ':') = n.1.toList ∧
      (n.1 ++ ":" ++ l).toList.dropWhile (· ≠ ':') = ':' :: l.toList := by
  have hchars : (n.1 ++ ":" ++ l).toList = n.1.toList ++ ':' :: l.toList := by simp
  have hall : ∀ c ∈ n.1.toList, decide (c ≠ ':') = true := by
    intro c hc
    rw [decide_eq_true_eq]
    rintro rfl
    exact (namespaces_names n hn).1 hc
  rw [hchars, List.takeWhile_append_of_pos hall, List.dropWhile_append_of_pos hall]
  simp

theorem iriOf?_shortName {n : String × Iri} (hn : n ∈ namespaces) (l : String) :
    iriOf? (n.1 ++ ":" ++ l) = some (n.2 ++ l) := by
  have hlookup : ∀ n ∈ namespaces, namespaces.lookup n.1 = some n.2 := by decide +kernel
  obtain ⟨htake, hdrop⟩ := shortName_split hn l
  simp only [iriOf?, htake, hdrop, String.ofList_toList, hlookup n hn, Option.map_some]

/-! ## Short names of IRIs -/

/-- What is in a namespace under a local name has a short name. -/
theorem compact?_append {n : String × Iri} (hn : n ∈ namespaces) {l : String} (hl : LocalName l) :
    compact? (n.2 ++ l) = some (n.1 ++ ":" ++ l) := by
  have hsome : (compact? (n.2 ++ l)).isSome = true := by
    rw [compact?, List.findSome?_isSome_iff]
    refine ⟨n, hn, ?_⟩
    have hrest : List.isPrefixOf? n.2.toList (n.2 ++ l).toList = some l.toList := by
      rw [List.isPrefixOf?_eq_some_iff_append_eq, String.toList_append]
    simp only [hrest, isLocalName_iff.2 hl, if_true, Option.isSome_some]
  obtain ⟨s, hs⟩ := Option.isSome_iff_exists.1 hsome
  -- some namespace gave a short name, and there is only this one
  obtain ⟨m, hm, cs, -, hi, rfl⟩ := compact?_eq_some hs
  obtain ⟨rfl, rfl⟩ := namespaces_split hn hm hi
  exact hs

/-- A short name is made of the name of a namespace and a local name. -/
theorem parts_of_compact? {i : Iri} {s : String} (h : compact? i = some s) :
    ∃ n ∈ namespaces, ∃ l, LocalName l ∧ i = n.2 ++ l ∧ s = n.1 ++ ":" ++ l := by
  obtain ⟨n, hn, cs, hcs, hi, hs⟩ := compact?_eq_some h
  exact ⟨n, hn, String.ofList cs, isLocalName_iff.1 (by rwa [String.toList_ofList]), hi, hs⟩

/-- **A short name stands for the IRI** that it was made for. -/
theorem iriOf?_of_compact? {i : Iri} {s : String} (h : compact? i = some s) :
    iriOf? s = some i := by
  obtain ⟨n, hn, l, -, rfl, rfl⟩ := parts_of_compact? h
  exact iriOf?_shortName hn l

/-- **What has a short name, and which.** An IRI has one exactly if it is a namespace followed by a
local name. The short name is then that of the namespace, a colon and the local name, and with the
namespace in place of its name it is the IRI again, so it is the short name of no other. -/
theorem compact?_exact (i : Iri) :
    (∀ s, compact? i = some s ↔
        ∃ n ∈ namespaces, ∃ l, LocalName l ∧ i = n.2 ++ l ∧ s = n.1 ++ ":" ++ l) ∧
      (∀ s, compact? i = some s → iriOf? s = some i) ∧
      ((compact? i).isSome = true ↔ ∃ n ∈ namespaces, ∃ l, LocalName l ∧ i = n.2 ++ l) ∧
      ∀ j s, compact? i = some s → compact? j = some s → i = j := by
  refine ⟨fun s => ⟨parts_of_compact?, ?_⟩, fun s => iriOf?_of_compact?,
    ⟨fun h => ?_, ?_⟩, fun j s hi hj => ?_⟩
  · rintro ⟨n, hn, l, hl, rfl, rfl⟩
    exact compact?_append hn hl
  · obtain ⟨s, hs⟩ := Option.isSome_iff_exists.1 h
    obtain ⟨n, hn, l, hl, hi, -⟩ := parts_of_compact? hs
    exact ⟨n, hn, l, hl, hi⟩
  · rintro ⟨n, hn, l, hl, rfl⟩
    rw [compact?_append hn hl, Option.isSome_some]
  · have hback := (iriOf?_of_compact? hi).symm.trans (iriOf?_of_compact? hj)
    exact Option.some.inj hback

theorem compact?_exact_sample :
    compact? (Sh.space ++ "_2") = some "sh:_2" ∧ iriOf? "sh:_2" = some (Sh.space ++ "_2") := by
  have hl : LocalName "_2" := isLocalName_iff.1 (by decide)
  obtain ⟨hshort, hback, -, -⟩ := compact?_exact (Sh.space ++ "_2")
  have h : compact? (Sh.space ++ "_2") = some "sh:_2" :=
    (hshort _).2 ⟨("sh", Sh.space), by simp [namespaces], "_2", hl, rfl, rfl⟩
  exact ⟨h, hback _ h⟩

end SchemaShapes.Output
