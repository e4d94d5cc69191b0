import SchemaShapes.Proofs.Output.JsonLd

/-!
# What nodes are called in JSON-LD

A node has a name that is made for it, the short name of an IRI or the label of a blank node, or it
is an IRI that stands for itself. Names that are made differ, so two nodes are called the same only
if one is an IRI that reads like the name made for the other.

* `madeName?`: the name that is made for a node.
* `idsOf`: what the objects of a list are called.
* `id_eq_iff`: the nodes that are called the same.
* `ids_document`: what the node objects of a document are called.
-/

namespace SchemaShapes

/-- **A node of a graph**: a subject or an object that is no literal. -/
def Graph.HasNode (g : Graph) (t : Term) : Prop :=
  (∀ l, t ≠ .literal l) ∧ ∃ u ∈ g, u.subject = t ∨ u.object = t

namespace Output.JsonLd

/-- **The name that is made for a node**, if it does not stand for itself. -/
def madeName? : Term → Option String
  | .iri i => compact? i
  | .blank n => some (Term.blankLabel n)
  | .literal _ => none

/-- An IRI that reads like the name made for a node. -/
def Mimics (s t : Term) : Prop := ∃ i, s = .iri i ∧ madeName? t = some i

/-! ## Names that are made -/

/-- A short name is made for one IRI. -/
theorem expand_of_compact? {i : Iri} {s : String} (h : compact? i = some s) :
    expand context s = i := by
  obtain ⟨n, hn, cs, -, hi, hs⟩ := compact?_eq_some h
  rw [hs, hi, expand_compact hn]

theorem blankLabel_injective {m n : Nat} (h : Term.blankLabel m = Term.blankLabel n) : m = n := by
  have hchars := congrArg String.toList h
  rw [toList_blankLabel, toList_blankLabel, List.cons.injEq, List.cons.injEq, List.cons.injEq]
    at hchars
  have hm := numberOf?_toString m
  rw [hchars.2.2.2, numberOf?_toString] at hm
  exact (Option.some.inj hm).symm

/-- The starts of the names that are made. -/
theorem exists_reserved_of_madeName? {t : Term} {s : String} (h : madeName? t = some s) :
    ∃ start ∈ reserved, start.toList <+: s.toList := by
  have hreserved : ∀ n ∈ namespaces, n.1 ++ ":" ∈ reserved := by decide
  cases t with
  | iri i =>
    obtain ⟨n, hn, cs, -, -, rfl⟩ := compact?_eq_some h
    exact ⟨_, hreserved n hn, cs, by simp⟩
  | blank n =>
    cases h
    exact ⟨"_:", by simp [reserved], 'b' :: (toString n).toList, by rw [toList_blankLabel]; rfl⟩
  | literal l => cases h

/-- An IRI that stands for itself does not read like a name. -/
theorem madeName?_ne_of_plainName {i : Iri} (h : PlainName i) (t : Term) :
    madeName? t ≠ some i := by
  intro hname
  obtain ⟨start, hstart, hprefix⟩ := exists_reserved_of_madeName? hname
  exact h start hstart hprefix

/-- What is in a namespace stands for itself. -/
theorem plainName_namespace {n : String × Iri} (hn : n ∈ namespaces) (s : String) :
    PlainName (n.2 ++ s) := by
  have hhead : ∀ n ∈ namespaces, n.2.toList.head? = some 'h' := by decide +kernel
  refine plainName_of_head (c := 'h') ?_ (by decide)
  rw [String.toList_append, List.head?_append, hhead n hn, Option.some_or]

/-- No short name is made for what has the text of a name. -/
theorem compact?_eq_none_of_madeName? {t : Term} {s : String} (h : madeName? t = some s) :
    compact? s = none := by
  rw [Option.eq_none_iff_forall_ne_some]
  intro short hshort
  obtain ⟨n, hn, cs, -, rfl, -⟩ := compact?_eq_some hshort
  exact madeName?_ne_of_plainName (plainName_namespace hn _) t h

/-- The names that are made for two nodes differ. -/
theorem madeName?_injective {s t : Term} {name : String} (hs : madeName? s = some name)
    (ht : madeName? t = some name) : s = t := by
  have hlabel : ∀ (i : Iri) (n : Nat), compact? i ≠ some (Term.blankLabel n) := by
    intro i n hi
    obtain ⟨m, hm, cs, -, -, hname⟩ := compact?_eq_some hi
    obtain ⟨-, c, more, hchars, hne⟩ := namespaces_names m hm
    have hlist := congrArg String.toList hname
    simp [toList_blankLabel, hchars] at hlist
    exact hne hlist.1.symm
  -- a short name expands to its IRI, a label has its number, and no short name is a label
  cases s with
  | iri i =>
    cases t with
    | iri j => rw [← expand_of_compact? hs, ← expand_of_compact? ht]
    | blank n => cases ht; exact absurd hs (hlabel i n)
    | literal l => cases ht
  | blank m =>
    cases hs
    cases t with
    | iri j => exact absurd ht (hlabel j m)
    | blank n => rw [blankLabel_injective (Option.some.inj ht)]
    | literal l => cases ht
  | literal l => cases hs

/-! ## Names of nodes -/

theorem id_eq_of_madeName? {t : Term} {name : String} (h : madeName? t = some name) :
    id t = name := by
  cases t with
  | iri i => rw [id, short, show compact? i = some name from h, Option.getD_some]
  | blank n => exact Option.some.inj h
  | literal l => cases h

/-- A node is called by the name made for it, or it is an IRI that stands for itself. -/
theorem id_cases {t : Term} (hl : ∀ l, t ≠ .literal l) :
    madeName? t = some (id t) ∨ t = .iri (id t) := by
  cases t with
  | iri i =>
    cases hc : compact? i with
    | none => exact Or.inr (by rw [id, short, hc, Option.getD_none])
    | some s =>
      have hname : madeName? (.iri i) = some s := hc
      exact Or.inl (by rw [id_eq_of_madeName? hname, hname])
  | blank n => exact Or.inl rfl
  | literal l => exact absurd rfl (hl l)

/-- **Nodes that are called the same** are the same, or one mimics the other. -/
theorem id_eq_iff {s t : Term} (hs : ∀ l, s ≠ .literal l) (ht : ∀ l, t ≠ .literal l) :
    id s = id t ↔ s = t ∨ Mimics s t ∨ Mimics t s := by
  constructor
  · intro heq
    rcases id_cases hs with hs | hs <;> rcases id_cases ht with ht | ht
    · exact Or.inl (madeName?_injective hs (heq ▸ ht))
    · exact Or.inr (Or.inr ⟨_, ht, heq ▸ hs⟩)
    · exact Or.inr (Or.inl ⟨_, hs, heq ▸ ht⟩)
    · exact Or.inl (by rw [hs, ht, heq])
  · have hmimics : ∀ {a b : Term}, Mimics a b → id a = id b := by
      rintro a b ⟨i, rfl, hb⟩
      rw [id, short, compact?_eq_none_of_madeName? hb, Option.getD_none, id_eq_of_madeName? hb]
    rintro (rfl | h | h)
    · rfl
    · exact hmimics h
    · exact (hmimics h).symm

/-- No node mimics itself. -/
theorem not_mimics_self (t : Term) : ¬ Mimics t t := by
  rintro ⟨i, rfl, hi⟩
  have hnone := compact?_eq_none_of_madeName? hi
  rw [madeName?, hnone] at hi
  cases hi

/-! ## Documents -/

/-- What the objects of a list are called. -/
def idsOf (objects : List Json) : List (Option Json) := objects.map fun o => o.entry? "@id"

section Documents

variable {g : Graph}

/-- **Nodes are told by what they are called** exactly if none mimics another. -/
theorem distinct_ids_iff :
    (∀ s t, g.HasNode s → g.HasNode t → id s = id t → s = t) ↔
      ∀ s t, g.HasNode s → g.HasNode t → ¬ Mimics s t := by
  constructor
  · intro hdistinct s t hs ht hmimics
    have hsame := hdistinct s t hs ht ((id_eq_iff hs.1 ht.1).2 (Or.inr (Or.inl hmimics)))
    exact not_mimics_self t (hsame ▸ hmimics)
  · intro hnone s t hs ht heq
    rcases (id_eq_iff hs.1 ht.1).1 heq with hsame | h | h
    · exact hsame
    · exact absurd h (hnone s t hs ht)
    · exact absurd h (hnone t s ht hs)

theorem hasNode_of_mem_blocks (hsubjects : ∀ t ∈ g, ∀ l, t.subject ≠ .literal l) {b : Block}
    (hb : b ∈ g.blocks) : g.HasNode b.subject := by
  obtain ⟨t, ht, hs⟩ := Graph.mem_subjects.1 (List.mem_map_of_mem hb)
  exact ⟨hs ▸ hsubjects t ht, t, ht, Or.inl hs⟩

/-- **What the node objects of a document are called**: there is one for each subject. -/
theorem ids_document (hpredicates : ∀ t ∈ g, PlainName t.predicate) :
    ∃ objects, Json.entry? (document g) "@graph" = some (.array objects) ∧
      idsOf objects = g.blocks.map fun b => some (.string (id b.subject)) := by
  refine ⟨g.blocks.map node, by simp [document, Json.entry?], ?_⟩
  rw [idsOf, List.map_map]
  refine List.map_congr_left fun b hb => entry?_node_id fun e he heq => ?_
  have hmem : (⟨b.subject, e.1, e.2⟩ : Triple) ∈ g :=
    Graph.mem_of_mem_triples hb (List.mem_map_of_mem he)
  exact entry_key_ne_id (hpredicates _ hmem) heq.symm

/-- A value that is a reference is a reference to a node. -/
theorem id_eq_of_value_eq {t : Term} {name : String}
    (h : value t = .object [("@id", .string name)]) : (∀ l, t ≠ .literal l) ∧ id t = name := by
  cases t with
  | iri i => exact ⟨by simp, by simpa [value] using h⟩
  | blank n => exact ⟨by simp, by simpa [value] using h⟩
  | literal l =>
    obtain ⟨s, d⟩ := l
    cases d <;> simp [value] at h

end Documents

end Output.JsonLd

end SchemaShapes
