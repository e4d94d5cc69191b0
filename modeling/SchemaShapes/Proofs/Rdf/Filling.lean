import SchemaShapes.Output.Format
import SchemaShapes.Proofs.Rdf.Index
import SchemaShapes.Proofs.Rdf.Order
import SchemaShapes.Rdf.Fragment

/-!
# Filling a graph

A graph takes in single triples, lists of triples and fragments. What it holds in the end depends
on the triples alone, neither on the steps nor on their order: `mem_apply` says what a step adds,
`mem_fill` what a run adds, and a graph is determined by its triples.

The order of the triples puts those of one subject next to each other, so that grouping neighbours
makes one block for each subject.

* `mem_fill`: what a run adds.
* `Graph.canonical`: how the triples of a graph stand.
* `Graph.fill_canonical`: runs that supply the same triples end in the same graph.
-/

namespace SchemaShapes

/-- Nothing stands between two triples of one subject but triples of that subject. -/
def Contiguous (ts : List Triple) : Prop :=
  ∀ before between after : List Triple, ∀ a b : Triple,
    ts = before ++ a :: between ++ b :: after → a.subject = b.subject →
      ∀ t ∈ between, t.subject = a.subject

/-- In a list in the order of subjects, the triples of a subject are neighbours. -/
theorem contiguous_of_sorted {ts : List Triple} (h : ts.Pairwise Triple.SubjectLE) :
    Contiguous ts := by
  rintro before between after a b rfl hab t ht
  have hfrom : (a :: (between ++ b :: after)).Pairwise Triple.SubjectLE := by
    rw [List.append_assoc] at h
    exact (List.pairwise_append.1 h).2.1
  have hat : a.SubjectLE t := (List.pairwise_cons.1 hfrom).1 t (List.mem_append_left _ ht)
  have htb : t.SubjectLE b :=
    (List.pairwise_append.1 (List.pairwise_cons.1 hfrom).2).2.2 t ht b List.mem_cons_self
  have hta : t.SubjectLE a := by
    rw [Triple.SubjectLE, hab]
    exact htb
  exact Std.LawfulEqCmp.eq_of_compare (Std.OrientedCmp.isLE_antisymm hta hat)

namespace Graph

/-- Takes in the triples of a fragment. -/
def absorb (g : Graph) (f : Fragment) : Graph := g.extend f.triples

/-- **A step** that fills a graph. -/
inductive Step where
  | insert (t : Triple)
  | extend (ts : List Triple)
  | absorb (f : Fragment)

namespace Step

/-- The graph behind a step. -/
def apply (g : Graph) : Step → Graph
  | .insert t => (g.insert t).2
  | .extend ts => g.extend ts
  | .absorb f => g.absorb f

/-- The triples that a step supplies. -/
def supplies : Step → List Triple
  | .insert t => [t]
  | .extend ts => ts
  | .absorb f => f.triples

end Step

/-- **A run** of steps. -/
def fill (g : Graph) (steps : List Step) : Graph := steps.foldl Step.apply g

/-- The triples that a run supplies. -/
def supplied (steps : List Step) : List Triple := steps.flatMap Step.supplies

variable {g : Graph} {t u : Triple}

/-- An insertion tells whether the triple is new. -/
theorem insert_fst : (g.insert t).1 = true ↔ t ∉ g := by
  rw [← contains_iff, insert]
  cases g.contains t <;> simp

theorem mem_insert : u ∈ (g.insert t).2 ↔ u ∈ g ∨ u = t := by
  rw [insert]
  split
  · rename_i h
    refine ⟨.inl, ?_⟩
    rintro (hu | rfl)
    · exact hu
    · exact contains_iff.1 h
  · rw [mem_extend, List.mem_singleton]

/-- **What a step adds**: the triples it supplies. -/
theorem mem_apply {step : Step} : t ∈ step.apply g ↔ t ∈ g ∨ t ∈ step.supplies := by
  cases step with
  | insert u => rw [Step.supplies, List.mem_singleton]; exact mem_insert
  | extend ts => exact mem_extend
  | absorb f => exact mem_extend

/-- **What a run adds**: the triples it supplies. -/
theorem mem_fill {steps : List Step} : t ∈ g.fill steps ↔ t ∈ g ∨ t ∈ supplied steps := by
  induction steps generalizing g with
  | nil => simp [fill, supplied]
  | cons step steps ih =>
    calc t ∈ g.fill (step :: steps)
        ↔ t ∈ step.apply g ∨ t ∈ supplied steps := ih
      _ ↔ t ∈ g ∨ t ∈ step.supplies ∨ t ∈ supplied steps := by rw [mem_apply, or_assoc]
      _ ↔ t ∈ g ∨ t ∈ supplied (step :: steps) := by
          rw [supplied, supplied, List.flatMap_cons, List.mem_append]

/-- **How the triples of a graph stand**: strictly in order, those of one subject together, and
grouped into one block for each subject, with all of its edges. -/
structure Canonical (g : Graph) : Prop where
  ordered : g.toList.Pairwise Triple.Precedes
  contiguous : Contiguous g.toList
  grouped : g.blocks.flatMap Block.triples = g.toList
  subjects_nodup : (g.blocks.map Block.subject).Nodup
  subject_iff : ∀ s, s ∈ g.blocks.map Block.subject ↔ ∃ t ∈ g, t.subject = s
  block_edges : ∀ b ∈ g.blocks, b.edges = edgesFrom g.toList b.subject

theorem canonical (g : Graph) : g.Canonical where
  ordered := g.ordered.imp Triple.before_iff.1
  contiguous := contiguous_of_sorted g.subjects_sorted
  grouped := triples_blocksOf g.toList
  subjects_nodup := g.nodup_subjects
  subject_iff _ := mem_subjects
  block_edges _ := edges_of_mem_blocksOf g.subjects_sorted

/-- **A graph does not tell how it was filled.** Two runs that supply the same triples, in any
order and any number of times, end in the same graph, which stands in the one strict order and is
written the same way in each format. An insertion tells whether its triple is new, and no step
takes a triple away. -/
theorem fill_canonical (start : Graph) (xs ys : List Step)
    (h : ∀ t, t ∈ supplied xs ↔ t ∈ supplied ys) :
    start.fill xs = start.fill ys ∧
      (start.fill xs).toList = (start.fill ys).toList ∧
      (∀ t, t ∈ start.fill xs ↔ t ∈ start ∨ t ∈ supplied xs) ∧
      (start.fill xs).Canonical ∧ IsStrictTotalOrder Triple Triple.Precedes ∧
      (∀ format : Output.Format,
        format.render (start.fill xs) = format.render (start.fill ys)) ∧
      Output.JsonLd.document (start.fill xs) = Output.JsonLd.document (start.fill ys) ∧
      (∀ (g : Graph) (t : Triple), (g.insert t).1 = true ↔ t ∉ g) ∧
      (∀ (g : Graph) (step : Step) (t : Triple), t ∈ g → t ∈ step.apply g) := by
  have heq : start.fill xs = start.fill ys :=
    eq_of_mem_iff fun t => by rw [mem_fill, mem_fill, h t]
  exact ⟨heq, congrArg toList heq, fun _ => mem_fill, canonical _,
    Triple.precedes_strictTotalOrder, fun format => congrArg format.render heq, congrArg Output.JsonLd.document heq,
    fun _ _ => insert_fst, fun _ _ _ ht => mem_apply.2 (.inl ht)⟩

/-- Two triples, one by one and one of them twice, or the later one first and then both. -/
theorem fill_canonical_sample :
    let a : Triple := ⟨.iri "urn:A", Rdf.type, .iri "urn:Thing"⟩
    let b : Triple := ⟨.blank 0, Rdf.first, .literal ⟨"1", none⟩⟩
    empty.fill [.insert a, .insert b, .insert a] =
      empty.fill [.absorb ⟨.blank 0, [b]⟩, .extend [a, b]] :=
  (fill_canonical empty _ _ fun t => by simp [supplied, Step.supplies, or_comm, or_left_comm]).1

end Graph

end SchemaShapes
