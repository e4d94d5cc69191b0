import SchemaShapes.Proofs.Compile.Nodes

/-!
# Who owns the blank nodes

The blank nodes of a graph of shapes are numbered without a gap, and each of them belongs to one
slot, or to the list of one closed shape.

* `Schema.Ownership`: what this means for a graph.
* `Schema.compile_ownership`: the graph of a schema is such a graph.
-/

namespace SchemaShapes.Schema

open Relation

/-- **The blank nodes of a graph of shapes**, and whom they belong to. -/
structure Ownership (schema : Schema) (options : Options) (g : Graph) (count : Nat) : Prop where
  /-- The numbers that occur are those up to `count`. -/
  numbered : ∀ n, (∃ t ∈ g, t.subject = .blank n ∨ t.object = .blank n) ↔ n < count
  /-- One triple leads to each. -/
  owner : ∀ n < count, ∃! t, t ∈ g ∧ t.object = .blank n
  /-- Each is described. -/
  described : ∀ n < count, ∃ t ∈ g, t.subject = .blank n
  subjects : ∀ t ∈ g, ∀ l, t.subject ≠ .literal l
  /-- The way up from each ends at the shape of a class. -/
  ascent : ∀ n < count, ∃ decl ∈ schema.classes, ∃ path, g.Ascent n path (options.shapeIri decl)
  acyclic : ∀ n, ¬ TransGen g.Holds n n
  /-- Each hangs below one site, or is its node. -/
  separate : ∀ n < count, ∃! site, schema.HasSite options site ∧
    ReflTransGen g.Holds (schema.siteNode options site) n
  /-- Every triple is reached from the shape of a class. -/
  reachable : ∀ t ∈ g, ∃ decl ∈ schema.classes,
    ReflTransGen g.Links (.iri (options.shapeIri decl)) t.subject

variable {schema : Schema} {options : Options} {g : Graph}

/-- The node of a site is what the shape of its class leads to. -/
theorem HasSite.links (h : schema.compile options = .ok g) {site : Site}
    (hs : schema.HasSite options site) :
    ∃ x, g.Links (.iri x) (.blank (schema.siteNode options site)) := by
  obtain ⟨decl, hi⟩ := hs.exists_class
  exact ⟨_, site.predicate, (compile_sites h).2 ⟨site, decl, hs, hi, rfl, rfl, rfl⟩⟩

/-- **Each blank node belongs to one site.** -/
theorem existsUnique_site (h : schema.compile options = .ok g) {n : Nat}
    (hn : n < (schema.compileRun options).taken) :
    ∃! site, schema.HasSite options site ∧
      ReflTransGen g.Holds (schema.siteNode options site) n := by
  obtain ⟨shapes, hforest, -, -⟩ := compile_shapes h
  obtain ⟨top, ⟨⟨x, p, htop⟩, hpath⟩, honly⟩ := hforest.existsUnique_top hn
  -- what hangs below an edge of an IRI hangs below a site
  obtain ⟨site, decl, hs, -, -, -, rfl⟩ := (compile_sites h).1 htop
  refine ⟨site, ⟨hs, hpath⟩, ?_⟩
  rintro other ⟨hother, hpath'⟩
  exact siteNode_injective h hother hs (honly _ ⟨hother.links h, hpath'⟩)

/-- **Ownership of blank nodes.** They are numbered up to the count of the run; one triple leads to
each and some triple describes it; the way up over these triples ends at the shape of a class and
visits no node twice; no node belongs to two slots or classes, and every triple is reached from a
shape. -/
theorem compile_ownership (h : schema.compile options = .ok g) :
    schema.Ownership options g (schema.compileRun options).taken := by
  obtain ⟨shapes, hforest, -, hshapes⟩ := compile_shapes h
  have hroot : ∀ f ∈ shapes, ∃ decl ∈ schema.classes, f.node = .iri (options.shapeIri decl) := by
    intro f hf
    obtain ⟨i, decl, properties, hi, -, rfl⟩ := hshapes f hf
    exact ⟨decl, List.mem_of_getElem? hi, rfl⟩
  refine ⟨fun n => ⟨?_, fun hn => ?_⟩, fun n hn => hforest.existsUnique_owner hn,
    fun n hn => hforest.described hn, fun t ht l hl => ?_, fun n hn => ?_, hforest.acyclic,
    fun n hn => existsUnique_site h hn, fun t ht => ?_⟩
  · rintro ⟨t, ht, hn⟩
    exact hforest.number_lt ht hn
  · obtain ⟨t, ht, hs⟩ := hforest.described hn
    exact ⟨t, ht, Or.inl hs⟩
  · rcases hforest.subject_cases ht with ⟨f, hf, hs⟩ | ⟨n, -, hs⟩
    · obtain ⟨decl, -, hnode⟩ := hroot f hf
      rw [hl, hnode] at hs
      cases hs
    · rw [hl] at hs
      cases hs
  · obtain ⟨f, hf, x, path, hx, hpath⟩ := hforest.exists_ascent hn
    obtain ⟨decl, hdecl, hnode⟩ := hroot f hf
    rw [hnode, Term.iri.injEq] at hx
    exact ⟨decl, hdecl, path, hx ▸ hpath⟩
  · obtain ⟨f, hf, hpath⟩ := hforest.reaches_subject ht
    obtain ⟨decl, hdecl, hnode⟩ := hroot f hf
    exact ⟨decl, hdecl, hnode ▸ hpath⟩

theorem compile_ownership_sample : ∃ g, sample.compile .standard = .ok g ∧
    (∀ n, (∃ t ∈ g, t.subject = .blank n ∨ t.object = .blank n) ↔ n < 14) ∧
    ∃! t, t ∈ g ∧ t.object = .blank 11 := by
  obtain ⟨g, h⟩ : ∃ g, sample.compile .standard = .ok g := ⟨_, rfl⟩
  have hcount : (sample.compileRun .standard).taken = 14 := rfl
  have howned := compile_ownership h
  rw [hcount] at howned
  exact ⟨g, h, howned.numbered, howned.owner 11 (by decide)⟩

end SchemaShapes.Schema
