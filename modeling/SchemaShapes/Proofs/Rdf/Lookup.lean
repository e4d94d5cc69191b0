import SchemaShapes.Proofs.Rdf.Index

/-!
# Two ways to look a triple up

A graph is read by filters over all of its triples, an index by the edges of one subject. Both
give the same objects in the same order.

An index may be made from the blocks of a graph, or filled in one pass that hangs each triple
behind the edges its subject already has. `edges_fill` carries the pass: after any number of
triples, a subject has the edges it began with and behind them those of the triples, in order.

* `edges_fill`: what a pass leaves.
* `objects_edges`: the edges of one predicate are the objects of the graph.
* `lookup_agrees`: the index and the graph agree, for every subject and predicate.
-/

namespace SchemaShapes

namespace SubjectIndex

/-- The index without any edge. -/
def empty : SubjectIndex := ⟨∅⟩

/-- **One triple more**: its edge goes behind those of its subject. -/
def push (index : SubjectIndex) (t : Triple) : SubjectIndex :=
  ⟨index.table.insert t.subject (index.edges t.subject ++ [(t.predicate, t.object)])⟩

/-- A pass over triples. -/
def fill (index : SubjectIndex) (ts : List Triple) : SubjectIndex := ts.foldl push index

@[simp] theorem edges_empty (s : Term) : empty.edges s = [] := Std.HashMap.getD_empty

/-- A triple adds to the edges of its subject only. -/
theorem edges_push (index : SubjectIndex) (t : Triple) (s : Term) :
    (index.push t).edges s = index.edges s ++ edgesFrom [t] s := by
  by_cases h : t.subject = s
  · subst h
    have hown : edgesFrom [t] t.subject = [(t.predicate, t.object)] := by simp [edgesFrom]
    rw [hown]
    exact Std.HashMap.getD_insert_self
  · have hnone : edgesFrom [t] s = [] := edgesFrom_eq_nil (by simpa using h)
    rw [hnone, List.append_nil]
    simp [edges, push, Std.HashMap.getD_insert, h]

/-- **What a pass leaves**: the edges of before, and behind them those of the triples in order. -/
theorem edges_fill (index : SubjectIndex) (ts : List Triple) (s : Term) :
    (index.fill ts).edges s = index.edges s ++ edgesFrom ts s := by
  induction ts generalizing index with
  | nil => exact (List.append_nil _).symm
  | cons t ts ih =>
    calc (index.fill (t :: ts)).edges s
        = (index.push t).edges s ++ edgesFrom ts s := ih (index.push t)
      _ = index.edges s ++ (edgesFrom [t] s ++ edgesFrom ts s) := by
          rw [edges_push, List.append_assoc]
      _ = index.edges s ++ edgesFrom (t :: ts) s := by rw [← edgesFrom_append]; rfl

/-- The index of a graph has the edges that a pass over its triples leaves. -/
theorem edges_fill_graph (g : Graph) (s : Term) :
    (empty.fill g.toList).edges s = (ofGraph g).edges s := by
  rw [edges_fill, edges_empty, List.nil_append, edges_ofGraph]

/-- **The edges of one predicate** lead to the objects of the graph, in the same order. -/
theorem objects_edges (g : Graph) (s : Term) (p : Iri) :
    (((ofGraph g).edges s).filter fun e => e.1 == p).map (·.2) = g.objects s p := by
  rw [edges_ofGraph, edgesFrom, List.filter_map, List.filter_filter, List.map_map, Graph.objects]
  congr 1
  exact List.filter_congr fun t _ => Bool.and_comm _ _

end SubjectIndex

/-- **The index agrees with the graph.** The edges of a subject are those of its triples, in the
order of the graph and each once, as a single pass over the graph collects them. Those of one
predicate lead to the objects that the graph itself finds; the object that is looked up is the
first of them, which is the least, and there is none if the graph has no such triple. Objects and
subjects are found exactly for the triples that are contained. -/
theorem SubjectIndex.lookup_agrees (g : Graph) (s : Term) (p : Iri) :
    let index := SubjectIndex.ofGraph g
    let found := ((index.edges s).filter fun e => e.1 == p).map (·.2)
    (index.edges s =
        (g.toList.filter fun t => t.subject == s).map fun t => (t.predicate, t.object)) ∧
      (index.edges s).Nodup ∧
      (SubjectIndex.empty.fill g.toList).edges s = index.edges s ∧
      found = g.objects s p ∧
      index.object? s p = found.head? ∧
      (∀ o, index.object? s p = some o ↔ g.Least s p o) ∧
      (index.object? s p = none ↔ ∀ o, g.contains ⟨s, p, o⟩ = false) ∧
      (∀ o, o ∈ g.objects s p ↔ s ∈ g.subjects p o) ∧
      (∀ o, o ∈ g.objects s p ↔ g.contains ⟨s, p, o⟩ = true) := by
  have hmem : ∀ o, o ∈ g.objects s p ↔ g.contains ⟨s, p, o⟩ = true := fun o =>
    Graph.mem_objects.trans Graph.contains_iff.symm
  refine ⟨edges_ofGraph g s, ?_, edges_fill_graph g s, objects_edges g s p, ?_,
    fun o => object?_eq_some_iff, ?_, fun o => ?_, hmem⟩
  · rw [edges_ofGraph]
    exact edgesFrom_nodup g s
  · rw [objects_edges]
    exact object?_ofGraph g s p
  · rw [object?_eq_none_iff]
    exact forall_congr' fun o => by rw [← Graph.contains_iff, Bool.not_eq_true]
  · exact Graph.mem_objects.trans Graph.mem_subjectsWith.symm

end SchemaShapes
