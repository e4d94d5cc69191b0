import Mathlib.Algebra.GroupWithZero.Nat
import SchemaShapes.Proofs.Rdf.Forest
import SchemaShapes.Proofs.Rdf.Index

/-!
# How many triples there are

A graph has as many triples as the list it is made of, if no triple is listed twice. A node with
edges lists none twice if it has no two edges with one predicate to one node: what the edges lead to
leaves blank nodes, and no number is owned twice.

* `Graph.size_ofList_le`, `Graph.size_ofList`: the size of the graph of a list.
* `Graph.countP_ofList`: how many triples of a kind it has.
* `Fragment.nodup_describe`, `Fragment.nodup_chain`: fragments that list no triple twice.
* `weight`: how many triples edges come with.
-/

namespace SchemaShapes

open Fragment

namespace Graph

/-- A graph has no more triples than it is made of. -/
theorem size_ofList_le (ts : List Triple) : (ofList ts).size ≤ ts.length :=
  (List.subperm_of_subset (ofList ts).nodup_toList fun _ ht => mem_ofList.1 ht).length_le

/-- **No triple is lost** if none is listed twice. -/
theorem size_ofList {ts : List Triple} (h : ts.Nodup) : (ofList ts).size = ts.length :=
  ((List.perm_ext_iff_of_nodup (ofList ts).nodup_toList h).2 fun _ => mem_ofList).length_eq

end Graph

namespace Fragment

/-- Branches that own nothing in common have no triple in common. -/
theorem Branch.disjoint_triples {f g : Fragment} (hf : f.Branch) (hg : g.Branch)
    (h : f.owned.Disjoint g.owned) : f.triples.Disjoint g.triples := by
  intro t htf htg
  obtain ⟨n, hn, hs⟩ := hf.subject_blank htf
  exact h hn (hg.mem_owned_of_subject htg hs)

section Describe

variable {node : Term} {edges : List (Iri × Fragment)}

/-- What an edge leads to does not describe the node. -/
theorem subject_ne_node (hb : ∀ e ∈ edges, e.2.Branch) (hown : (describe node edges).owned.Nodup)
    {e : Iri × Fragment} (he : e ∈ edges) {t : Triple} (ht : t ∈ e.2.triples) :
    t.subject ≠ node := by
  intro hs
  obtain ⟨n, hn, hblank⟩ := (hb e he).subject_blank ht
  rw [owned_describe, List.flatMap_map] at hown
  have hnode : n ∈ node.numbers := Term.mem_numbers.2 (hs ▸ hblank)
  exact List.disjoint_of_nodup_append hown hnode (List.mem_flatMap.2 ⟨e, he, hn⟩)

/-- **A node with edges lists no triple twice**, if it has no two edges with one predicate to one
node, and what they lead to lists none twice. -/
theorem nodup_describe (hb : ∀ e ∈ edges, e.2.Branch) (hown : (describe node edges).owned.Nodup)
    (hedges : (edges.map fun e => (e.1, e.2.node)).Nodup)
    (hmore : ∀ e ∈ edges, e.2.triples.Nodup) : (describe node edges).triples.Nodup := by
  have howned : edges.Pairwise fun e e' => e.2.owned.Disjoint e'.2.owned := by
    rw [owned_describe, List.flatMap_map] at hown
    exact (List.nodup_flatMap.1 hown.of_append_right).2
  refine List.nodup_flatMap.2 ⟨fun e he => ?_, ?_⟩
  · refine List.nodup_cons.2 ⟨fun ht => ?_, hmore e he⟩
    exact subject_ne_node hb hown he ht rfl
  · -- two edges: they differ, neither leads to the other, and nothing hangs below both
    have hdiffer := (List.pairwise_map.1 hedges).and howned
    refine hdiffer.imp_of_mem ?_
    rintro e e' he he' ⟨hne, hdis⟩ t ht ht'
    rcases List.mem_cons.1 ht with rfl | ht
    · rcases List.mem_cons.1 ht' with heq | ht'
      · simp only [Triple.mk.injEq, true_and] at heq
        exact hne (Prod.ext heq.1 heq.2)
      · exact subject_ne_node hb hown he' ht' rfl
    · rcases List.mem_cons.1 ht' with rfl | ht'
      · exact subject_ne_node hb hown he ht rfl
      · exact (hb e he).disjoint_triples (hb e' he') hdis ht ht'

end Describe

/-- The same for the cells of a list, which have one edge to the member and one to the rest. -/
theorem nodup_chain {members : List Fragment} {cell : Nat} (hb : ∀ m ∈ members, m.Branch)
    (hown : (chain members cell).owned.Nodup) (hmore : ∀ m ∈ members, m.triples.Nodup) :
    (chain members cell).triples.Nodup := by
  induction members generalizing cell with
  | nil => exact List.nodup_nil
  | cons m ms ih =>
    rw [List.forall_mem_cons] at hb hmore
    have hrest : (chain ms (cell + 1)).owned.Nodup := by
      rw [chain, owned_describe] at hown
      simp only [List.map_cons, List.map_nil, List.flatMap_cons, List.flatMap_nil,
        List.append_nil] at hown
      exact hown.of_append_right.of_append_right
    have hne : Rdf.first ≠ Rdf.rest := by decide
    refine nodup_describe ?_ hown (by simp [hne]) ?_
    · simpa using ⟨hb.1, branch_chain hb.2 (cell + 1)⟩
    · simpa using ⟨hmore.1, ih hb.2 hrest hmore.2⟩

end Fragment

/-- Blank nodes that are owned once differ. -/
theorem nodup_nodes {fs : List Fragment} (hown : (fs.flatMap Fragment.owned).Nodup)
    (hblank : ∀ f ∈ fs, ∃ n, f.node = .blank n) : (fs.map (·.node)).Nodup := by
  refine List.pairwise_map.2 ((List.nodup_flatMap.1 hown).2.imp_of_mem ?_)
  intro f g hf _ hdis heq
  obtain ⟨n, hn⟩ := hblank f hf
  exact hdis (mem_owned.2 (Or.inl hn)) (mem_owned.2 (Or.inl (heq ▸ hn)))

/-- **A forest lists no triple twice** if its roots differ and no tree does. -/
theorem Graph.Forest.nodup_triples {g : Graph} {fs : List Fragment} {stop : Nat}
    (h : g.Forest fs stop) (hroots : (fs.map (·.node)).Nodup)
    (hmore : ∀ f ∈ fs, f.triples.Nodup) : (fs.flatMap (·.triples)).Nodup := by
  refine List.nodup_flatMap.2 ⟨hmore, ?_⟩
  have hdiffer := (List.pairwise_map.1 hroots).and (List.nodup_flatMap.1 h.nodup).2
  refine hdiffer.imp_of_mem ?_
  rintro f f' hf hf' ⟨hne, hdis⟩ t ht ht'
  -- a common triple would leave a root of both, or a number that both own
  rcases (h.rooted f hf).subjects t ht with hs | ⟨n, hn, hs⟩
  · rcases (h.rooted f' hf').subjects t ht' with hs' | ⟨n, -, hs'⟩
    · exact hne (hs.symm.trans hs')
    · obtain ⟨x, hx⟩ := h.named f hf
      rw [hs, hx] at hs'
      cases hs'
  · exact hdis (mem_owned.2 (Or.inr hn)) ((h.rooted f' hf').mem_owned_of_subject ht' hs)

/-- **How many triples edges come with**: one each, and those that describe what it leads to. -/
def weight (edges : List (Iri × Fragment)) : Nat :=
  (edges.map fun e => 1 + e.2.triples.length).sum

@[simp] theorem weight_nil : weight [] = 0 := rfl

@[simp] theorem weight_cons (e : Iri × Fragment) (edges : List (Iri × Fragment)) :
    weight (e :: edges) = 1 + e.2.triples.length + weight edges := by
  simp [weight]

@[simp] theorem weight_append (es fs : List (Iri × Fragment)) :
    weight (es ++ fs) = weight es + weight fs := by
  simp [weight]

theorem length_describe (node : Term) (edges : List (Iri × Fragment)) :
    (describe node edges).triples.length = weight edges := by
  simp [describe, weight, List.length_flatMap, Nat.add_comm]

end SchemaShapes
