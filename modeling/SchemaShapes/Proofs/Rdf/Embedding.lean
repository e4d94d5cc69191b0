import SchemaShapes.Proofs.Rdf.Tree
import SchemaShapes.Rdf.Graph

/-!
# Fragments inside a graph

A graph **embeds** a fragment if it says of each blank node that the fragment owns exactly what the
fragment says. Numbers are owned once, so a graph that is made of rooted fragments embeds each of
them, and with a node it embeds all that the edges of the node lead to.

* `embeds_ofList`: a graph embeds the fragments it is made of.
* `Embeds.edge`, `Embeds.mem_iff`: from a node with edges to each edge.
* `Graph.AgreesOn`: the same between two numbers, for fragments whose items may be any terms.
-/

namespace SchemaShapes

open Fragment

section Origin

variable {α β : Type} {l : List α} {f : α → List β}

/-- **What is listed once has one origin.** -/
theorem index_eq_of_mem_flatMap (h : (l.flatMap f).Nodup) {i j : Nat} {a b : α}
    (ha : l[i]? = some a) (hb : l[j]? = some b) {x : β} (hxa : x ∈ f a) (hxb : x ∈ f b) :
    i = j := by
  obtain ⟨hi, rfl⟩ := List.getElem?_eq_some_iff.1 ha
  obtain ⟨hj, rfl⟩ := List.getElem?_eq_some_iff.1 hb
  have hdis := List.pairwise_iff_getElem.1 (List.nodup_flatMap.1 h).2
  rcases Nat.lt_trichotomy i j with hlt | heq | hgt
  · exact absurd hxb (hdis i j hi hj hlt hxa)
  · exact heq
  · exact absurd hxa (hdis j i hj hi hgt hxb)

theorem eq_of_mem_flatMap (h : (l.flatMap f).Nodup) {a b : α} (ha : a ∈ l) (hb : b ∈ l) {x : β}
    (hxa : x ∈ f a) (hxb : x ∈ f b) : a = b := by
  obtain ⟨i, hi⟩ := List.mem_iff_getElem?.1 ha
  obtain ⟨j, hj⟩ := List.mem_iff_getElem?.1 hb
  have hij := index_eq_of_mem_flatMap h hi hj hxa hxb
  rw [hij, hj] at hi
  exact (Option.some.inj hi).symm

theorem nodup_of_mem_flatMap (h : (l.flatMap f).Nodup) {a : α} (ha : a ∈ l) : (f a).Nodup :=
  (List.nodup_flatMap.1 h).1 a ha

end Origin

/-- **A fragment that a graph embeds.** -/
def Graph.Embeds (g : Graph) (f : Fragment) : Prop :=
  ∀ n ∈ f.owned, ∀ p o, (⟨.blank n, p, o⟩ : Triple) ∈ g ↔ (⟨.blank n, p, o⟩ : Triple) ∈ f.triples

/-- Among rooted fragments, a number is described by the one that owns it. -/
theorem mem_triples_of_owned {fs : List Fragment} (hr : ∀ f ∈ fs, f.Rooted)
    (hn : (fs.flatMap Fragment.owned).Nodup) {f : Fragment} (hf : f ∈ fs) {n : Nat}
    (hown : n ∈ f.owned) {t : Triple} (ht : t ∈ fs.flatMap (·.triples))
    (hs : t.subject = .blank n) : t ∈ f.triples := by
  obtain ⟨f', hf', ht'⟩ := List.mem_flatMap.1 ht
  have heq : f' = f := eq_of_mem_flatMap hn hf' hf ((hr f' hf').mem_owned_of_subject ht' hs) hown
  exact heq ▸ ht'

/-- **A graph embeds what it is made of.** -/
theorem embeds_ofList {fs : List Fragment} (hr : ∀ f ∈ fs, f.Rooted)
    (hn : (fs.flatMap Fragment.owned).Nodup) {f : Fragment} (hf : f ∈ fs) :
    (Graph.ofList (fs.flatMap (·.triples))).Embeds f := by
  intro n hown p o
  rw [Graph.mem_ofList]
  exact ⟨fun ht => mem_triples_of_owned hr hn hf hown ht rfl,
    fun ht => List.mem_flatMap.2 ⟨f, hf, ht⟩⟩

section Describe

variable {g : Graph} {node : Term} {edges : List (Iri × Fragment)}

theorem nodup_edges (hn : (describe node edges).owned.Nodup) :
    (edges.flatMap fun e => e.2.owned).Nodup := by
  rw [owned_describe, List.flatMap_map] at hn
  exact (List.nodup_append.1 hn).2.1

theorem node_not_owned {n : Nat} (hn : (describe (.blank n) edges).owned.Nodup)
    {e : Iri × Fragment} (he : e ∈ edges) : n ∉ e.2.owned := by
  rw [owned_describe, List.flatMap_map, Term.numbers_blank, List.singleton_append,
    List.nodup_cons] at hn
  exact fun k => hn.1 (List.mem_flatMap.2 ⟨e, he, k⟩)

/-- With a node, a graph embeds what an edge of the node leads to. -/
theorem Graph.Embeds.edge (h : g.Embeds (describe node edges))
    (hn : (describe node edges).owned.Nodup) (hb : ∀ e ∈ edges, e.2.Branch)
    {e : Iri × Fragment} (he : e ∈ edges) : g.Embeds e.2 := by
  intro n hown p o
  have hlink : n ∈ linked (describe node edges).triples := mem_linked_describe.2 ⟨e, he, hown⟩
  rw [h n (mem_owned.2 (Or.inr hlink)) p o, mem_describe]
  constructor
  · rintro ⟨e', he', k | k⟩
    · -- an edge of the node leaves a number that no edge leads to
      cases k
      exact absurd hown (node_not_owned hn he)
    · have hown' := (hb e' he').mem_owned_of_subject k rfl
      have := eq_of_mem_flatMap (nodup_edges hn) he' he hown' hown
      exact this ▸ k
  · exact fun k => ⟨e, he, Or.inr k⟩

/-- **The edges of a blank node** in a graph that embeds it. -/
theorem Graph.Embeds.mem_iff {n : Nat} (h : g.Embeds (describe (.blank n) edges))
    (hn : (describe (.blank n) edges).owned.Nodup) (hb : ∀ e ∈ edges, e.2.Branch) {p : Iri}
    {o : Term} : (⟨.blank n, p, o⟩ : Triple) ∈ g ↔ ∃ e ∈ edges, e.1 = p ∧ e.2.node = o := by
  rw [h n (mem_owned.2 (Or.inl rfl)) p o, mem_describe]
  constructor
  · rintro ⟨e, he, k | k⟩
    · cases k
      exact ⟨e, he, rfl, rfl⟩
    · -- what an edge leads to does not describe the node
      exact absurd ((hb e he).mem_owned_of_subject k rfl) (node_not_owned hn he)
  · rintro ⟨e, he, rfl, rfl⟩
    exact ⟨e, he, Or.inl rfl⟩

end Describe

/-- The edges of an IRI among the triples of a node with edges. -/
theorem mem_describe_of_iri {x y : Iri} {edges : List (Iri × Fragment)}
    (hb : ∀ e ∈ edges, e.2.Branch) {p : Iri} {o : Term} :
    (⟨.iri x, p, o⟩ : Triple) ∈ (describe (.iri y) edges).triples ↔
      y = x ∧ ∃ e ∈ edges, e.1 = p ∧ e.2.node = o := by
  rw [mem_describe]
  constructor
  · rintro ⟨e, he, k | k⟩
    · cases k
      exact ⟨rfl, e, he, rfl, rfl⟩
    · obtain ⟨n, -, hs⟩ := (hb e he).subject_blank k
      cases hs
  · rintro ⟨rfl, e, he, rfl, rfl⟩
    exact ⟨e, he, Or.inl rfl⟩

/-! ## Between two numbers -/

/-- A graph says of the blank nodes between two numbers exactly what some triples say. -/
def Graph.AgreesOn (g : Graph) (ts : List Triple) (first stop : Nat) : Prop :=
  ∀ n, first ≤ n → n < stop → ∀ p o,
    (⟨.blank n, p, o⟩ : Triple) ∈ g ↔ (⟨.blank n, p, o⟩ : Triple) ∈ ts

/-- The subjects of triples are the blank nodes between two numbers. -/
def Confined (ts : List Triple) (first stop : Nat) : Prop :=
  ∀ t ∈ ts, ∃ n, first ≤ n ∧ n < stop ∧ t.subject = .blank n

theorem Confined.append {ts us : List Triple} {a b c d : Nat} (h : Confined ts a b)
    (k : Confined us c d) (ha : a ≤ c) (hb : b ≤ d) : Confined (ts ++ us) a d := by
  intro t ht
  rcases List.mem_append.1 ht with ht | ht
  · obtain ⟨n, h1, h2, h3⟩ := h t ht
    exact ⟨n, h1, by omega, h3⟩
  · obtain ⟨n, h1, h2, h3⟩ := k t ht
    exact ⟨n, by omega, h2, h3⟩

/-- **Triples that leave other numbers do not matter**: what leaves the numbers up to `m` agrees
below it, and the rest from there on. -/
theorem Graph.AgreesOn.split {g : Graph} {ts us : List Triple} {a m b : Nat}
    (h : g.AgreesOn (ts ++ us) a b) (ht : Confined ts a m) (hu : Confined us m b) (ham : a ≤ m)
    (hmb : m ≤ b) : g.AgreesOn ts a m ∧ g.AgreesOn us m b := by
  refine ⟨fun n h1 h2 p o => ?_, fun n h1 h2 p o => ?_⟩
  · rw [h n h1 (by omega) p o, List.mem_append, or_iff_left_iff_imp]
    intro hin
    obtain ⟨k, h3, -, h5⟩ := hu _ hin
    cases h5
    omega
  · rw [h n (by omega) h2 p o, List.mem_append, or_iff_right_iff_imp]
    intro hin
    obtain ⟨k, -, h4, h5⟩ := ht _ hin
    cases h5
    omega

/-- The same with the triples in another order. -/
theorem Graph.AgreesOn.perm {g : Graph} {ts us : List Triple} {a b : Nat} (h : g.AgreesOn ts a b)
    (k : ts.Perm us) : g.AgreesOn us a b :=
  fun n h1 h2 p o => (h n h1 h2 p o).trans k.mem_iff

end SchemaShapes
