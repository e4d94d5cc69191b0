import SchemaShapes.Proofs.Rdf.Surroundings
import SchemaShapes.Proofs.Shape.Disjunction

/-!
# Disjunctions in any graph

A disjunction may be taken into a graph that knows nothing of its blank nodes, whatever else the
graph says and whatever values the alternatives list. It describes the numbers that it takes and no
others, so that it is read back, and a disjunction that is built later does not disturb it.

* `Alternative.subjects_disjunction`: the nodes that a disjunction describes.
* `Graph.FreshFrom.disjunction`: what is new to a graph that has taken in a disjunction.
* `Graph.alternatives_extend`: the alternatives are read back, also when another disjunction
  follows.
-/

namespace SchemaShapes

open Fragment SubjectIndex

/-- Each number from one on, below another, is described. -/
def Described (ts : List Triple) (first stop : Nat) : Prop :=
  ∀ n, first ≤ n → n < stop → ∃ t ∈ ts, t.subject = .blank n

theorem Described.append {ts us : List Triple} {a m b : Nat} (h : Described ts a m)
    (k : Described us m b) : Described (ts ++ us) a b := by
  intro n ha hb
  by_cases hm : n < m
  · obtain ⟨t, ht, hs⟩ := h n ha hm
    exact ⟨t, List.mem_append_left us ht, hs⟩
  · obtain ⟨t, ht, hs⟩ := k n (Nat.le_of_not_lt hm) hb
    exact ⟨t, List.mem_append_right ts ht, hs⟩

theorem described_cells (items : List Term) (next : Nat) :
    Described (cells items next) next (next + items.length) := by
  intro n hn hlt
  have hcell : Term.blank n ∈ ((cells items next).map (·.subject)).dedup := by
    rw [dedup_subjects_cells]
    exact List.mem_map_of_mem (List.mem_range'_1.2 ⟨hn, hlt⟩)
  exact List.mem_map.1 (List.mem_dedup.1 hcell)

namespace Alternative

theorem described_shape (a : Alternative) (next : Nat) :
    Described (a.shape next).triples next (next + a.taken) := by
  have hlink : ∀ p o, Described [⟨.blank next, p, o⟩] next (next + 1) := by
    intro p o n hn hlt
    exact ⟨_, List.mem_singleton_self _, congrArg Term.blank (by omega)⟩
  rw [triples_shape]
  cases a with
  | ofDatatype iri => exact hlink _ _
  | ofClass iri => exact hlink _ _
  | ofValues values =>
    rw [taken, ← Nat.add_assoc]
    exact (hlink _ _).append (described_cells values (next + 1))

theorem described_shapes (alternatives : List Alternative) (next : Nat) :
    Described ((shapes alternatives next).flatMap (·.triples)) next
      (next + shapesTaken alternatives) := by
  induction alternatives generalizing next with
  | nil =>
    intro n hn hlt
    exact absurd hlt (Nat.not_lt.2 hn)
  | cons a more ih =>
    have htaken : next + shapesTaken (a :: more) = next + a.taken + shapesTaken more :=
      (Nat.add_assoc ..).symm
    rw [shapes, List.flatMap_cons, htaken]
    exact (a.described_shape next).append (ih (next + a.taken))

/-- The triples of a disjunction: first those of the shapes, then those of the cells. -/
theorem triples_disjunction (alternatives : List Alternative) (next : Nat) :
    (disjunction alternatives next).triples.Perm
      ((shapes alternatives next).flatMap (·.triples) ++
        cells ((shapes alternatives next).map (·.node)) (next + shapesTaken alternatives)) :=
  List.perm_append_comm

/-- **The nodes that a disjunction describes** are the blank nodes that it takes. -/
theorem subjects_disjunction {alternatives : List Alternative} {next : Nat} {s : Term} :
    (∃ t ∈ (disjunction alternatives next).triples, t.subject = s) ↔
      ∃ n, next ≤ n ∧ n < next + disjunctionTaken alternatives ∧ s = .blank n := by
  set members := (shapes alternatives next).map (·.node) with hmembers
  have hstop : next + disjunctionTaken alternatives =
      next + shapesTaken alternatives + members.length := by
    rw [hmembers, List.length_map, length_shapes, disjunctionTaken, Nat.add_assoc]
  have hperm := triples_disjunction alternatives next
  have hconfined := (confined_shapes alternatives next).append (confined_cells members _)
    (Nat.le_add_right _ _) (Nat.le_add_right _ _)
  have hdescribed := (described_shapes alternatives next).append (described_cells members _)
  rw [hstop]
  constructor
  · rintro ⟨t, ht, rfl⟩
    exact hconfined t (hperm.mem_iff.1 ht)
  · rintro ⟨n, hn, hlt, rfl⟩
    obtain ⟨t, ht, hs⟩ := hdescribed n hn hlt
    exact ⟨t, hperm.mem_iff.2 ht, hs⟩

theorem confined_disjunction (alternatives : List Alternative) (next : Nat) :
    Confined (disjunction alternatives next).triples next
      (next + disjunctionTaken alternatives) :=
  fun t ht => subjects_disjunction.1 ⟨t, ht, rfl⟩

end Alternative

namespace Graph

open SchemaShapes.Alternative

variable {g : Graph} {next : Nat}

/-- **What follows a disjunction** is new to a graph that has taken it in. -/
theorem FreshFrom.disjunction (h : g.FreshFrom next) (alternatives : List Alternative) :
    (g.extend (Alternative.disjunction alternatives next).triples).FreshFrom
      (next + disjunctionTaken alternatives) := by
  intro t ht n hs
  rcases mem_extend.1 ht with ht | ht
  · have hlt := h t ht n hs
    omega
  · obtain ⟨k, -, hlt, hk⟩ := confined_disjunction alternatives next t ht
    rw [hs, Term.blank.injEq] at hk
    omega

/-- Triples that leave later numbers change nothing of what a graph says of earlier ones. -/
theorem AgreesOn.extend {ts us : List Triple} {a b c d : Nat} (h : g.AgreesOn ts a b)
    (hu : Confined us c d) (hbc : b ≤ c) : (g.extend us).AgreesOn ts a b := by
  intro n ha hb p o
  rw [mem_extend, h n ha hb p o, or_iff_left_iff_imp]
  intro hin
  obtain ⟨k, hk, -, hs⟩ := hu _ hin
  cases hs
  omega

/-- **A disjunction in any graph.** A graph takes in a disjunction on numbers that are new to it. If
neither the alternatives nor the values of one of them are more than a walk visits, the alternatives
are read back in order, with the values that they list one by one. The numbers that follow are new
again: a disjunction that is built later describes other nodes, and leaves the reading of the earlier
one as it is. -/
theorem alternatives_extend (h : g.FreshFrom next) (alternatives : List Alternative)
    (hlength : alternatives.length ≤ 65536)
    (hvalues : ∀ values, .ofValues values ∈ alternatives → values.length ≤ 65536) :
    let list := disjunction alternatives next
    let stop := next + disjunctionTaken alternatives
    let absorbed := g.extend list.triples
    (ofGraph absorbed).alternatives list.node = .ok (alternatives.flatMap readings) ∧
    (∀ s, (∃ t ∈ list.triples, t.subject = s) ↔ ∃ n, next ≤ n ∧ n < stop ∧ s = .blank n) ∧
    absorbed.FreshFrom stop ∧
    ∀ more later, stop ≤ later →
      let list' := disjunction more later
      (∀ t ∈ list.triples, ∀ t' ∈ list'.triples, t.subject ≠ t'.subject) ∧
      (ofGraph (absorbed.extend list'.triples)).alternatives list.node =
        .ok (alternatives.flatMap readings) := by
  intro list stop absorbed
  have hfits : ∀ a ∈ alternatives, a.Fits := by
    intro a ha
    cases a with
    | ofDatatype iri => trivial
    | ofClass iri => trivial
    | ofValues values => exact hvalues values ha
  -- the graph says of the new numbers what the disjunction says, and nothing else
  have hagrees : absorbed.AgreesOn list.triples next stop := agreesOn_extend h _ _
  refine ⟨(reads_disjunction hagrees).1 ⟨hlength, hfits⟩, fun s => subjects_disjunction,
    h.disjunction alternatives, fun more later hlater => ?_⟩
  intro list'
  have hconfined := confined_disjunction more later
  refine ⟨fun t ht t' ht' => ?_, ?_⟩
  · obtain ⟨n, -, hn, hs⟩ := confined_disjunction alternatives next t ht
    obtain ⟨k, hk, -, hs'⟩ := hconfined t' ht'
    rw [hs, hs', Ne, Term.blank.injEq]
    omega
  · exact (reads_disjunction (hagrees.extend hconfined hlater)).1 ⟨hlength, hfits⟩

/-- A graph with a blank node of its own takes in an alternative twice, values of which one is a
blank node that may be taken later, and no values at all; then it takes in another disjunction. -/
theorem alternatives_extend_mixed :
    (ofList [⟨.blank 1, Rdf.rest, .blank 2⟩]).FreshFrom 2 ∧
    let alternatives : List Alternative :=
      [.ofDatatype Xsd.integer, .ofValues [.blank 40, .iri Rdf.nil], .ofValues [],
        .ofDatatype Xsd.integer]
    let absorbed :=
      (ofList [⟨.blank 1, Rdf.rest, .blank 2⟩]).extend (disjunction alternatives 2).triples
    (ofGraph (absorbed.extend (disjunction alternatives 12).triples)).alternatives (.blank 8) =
      .ok [(Sh.datatype, .iri Xsd.integer), (Rdf.first, .blank 40), (Rdf.first, .iri Rdf.nil),
        (Sh.datatype, .iri Xsd.integer)] := by
  have h : (ofList [⟨.blank 1, Rdf.rest, .blank 2⟩]).FreshFrom 2 := by
    intro t ht n hn
    rw [mem_ofList, List.mem_singleton] at ht
    subst ht
    cases hn
    decide
  refine ⟨h, ?_⟩
  intro alternatives absorbed
  have hvalues : ∀ values, .ofValues values ∈ alternatives → values.length ≤ 65536 := by
    intro values hin
    simp only [alternatives, List.mem_cons, List.not_mem_nil, or_false, reduceCtorEq,
      Alternative.ofValues.injEq, false_or] at hin
    rcases hin with rfl | rfl <;> decide
  exact ((alternatives_extend h alternatives (by decide) hvalues).2.2.2 _ 12 (by decide)).2

end Graph

end SchemaShapes
