import SchemaShapes.Proofs.Compile.Iris

/-!
# The nodes of a graph of shapes in JSON-LD

The IRIs of the vocabulary and the blank nodes have names that differ. So a document tells all nodes
of a graph apart exactly if no IRI that the schema writes reads like one of their names.

* `Schema.compile_ids`: the schemas whose documents tell all nodes apart.
* `Schema.mimicking_ids`: a class whose IRI reads like the short name of another.
-/

namespace SchemaShapes.Schema

open Output Output.JsonLd

variable {schema : Schema} {options : Options} {g : Graph} {x : Iri}

/-- An IRI of a graph that reads like a name is one that the schema writes. -/
theorem mem_iris_of_hasNode (h : schema.compile options = .ok g) (hx : g.HasNode (.iri x))
    {t : Term} (ht : madeName? t = some x) : x ∈ schema.iris options := by
  obtain ⟨-, ⟨s, p, o⟩, hmem, rfl | rfl⟩ := hx
  · exact (subject_of_mem h hmem).1
  · cases object_of_mem h hmem with
    | vocabulary hv => exact absurd ht (madeName?_ne_of_plainName hv.plainName t)
    | written hw => exact hw

theorem hasNode_of_mem_iris (h : schema.compile options = .ok g) (hx : x ∈ schema.iris options) :
    g.HasNode (.iri x) := by
  obtain ⟨t, ht, hnode⟩ := exists_of_mem_iris h hx
  exact ⟨by simp, t, ht, hnode⟩

/-- The shape of a class is a subject. -/
theorem exists_block (h : schema.compile options = .ok g) {i : Nat} {decl : ClassDecl}
    (hi : schema.classes[i]? = some decl) :
    ∃ b ∈ g.blocks, b.subject = .iri (options.shapeIri decl) := by
  have hedge : (Rdf.type, Fragment.leaf (.iri Sh.nodeShape)) ∈
      decl.shapeEdges options (schema.classStart options i) := by simp [ClassDecl.shapeEdges]
  have hmem := (compile_iri h).2 ⟨i, decl, hi, rfl, Or.inl ⟨_, hedge, rfl, rfl⟩⟩
  exact List.mem_map.1 (Graph.mem_subjects.2 ⟨_, hmem, rfl⟩)

/-- **A document tells nodes apart** exactly if no IRI of the schema reads like a name that is made
for one of them. Then its node objects have different names, and a reference has the name of a node
object only if it is a reference to its node. -/
theorem compile_ids (h : schema.compile options = .ok g) :
    ((∀ s t, g.HasNode s → g.HasNode t → JsonLd.id s = JsonLd.id t → s = t) ↔
      ∀ x ∈ schema.iris options, ∀ t, g.HasNode t → madeName? t ≠ some x) ∧
    ((∀ x ∈ schema.iris options, ∀ t, g.HasNode t → madeName? t ≠ some x) →
      ∃ objects, Json.entry? (document g) "@graph" = some (.array objects) ∧
        idsOf objects =
          g.blocks.map (fun b => some (.string (JsonLd.id b.subject))) ∧
        (idsOf objects).Nodup ∧
        ∀ t ∈ g, ∀ b ∈ g.blocks, value t.object = .object [("@id", .string (JsonLd.id b.subject))] →
          t.object = b.subject) := by
  have hiff : (∀ s t, g.HasNode s → g.HasNode t → JsonLd.id s = JsonLd.id t → s = t) ↔
      ∀ x ∈ schema.iris options, ∀ t, g.HasNode t → madeName? t ≠ some x := by
    rw [distinct_ids_iff]
    constructor
    · intro hnone x hx t ht hname
      exact hnone (.iri x) t (hasNode_of_mem_iris h hx) ht ⟨x, rfl, hname⟩
    · rintro hnone s t hs ht ⟨x, rfl, hname⟩
      exact hnone x (mem_iris_of_hasNode h hs hname) t ht hname
  refine ⟨hiff, fun hnone => ?_⟩
  -- from here on only that names tell nodes apart
  have hdistinct := hiff.2 hnone
  have hsubjects := (compile_ownership h).subjects
  obtain ⟨objects, hgraph, hids⟩ :=
    ids_document fun t ht => (vocabulary_predicate h ht).plainName
  refine ⟨objects, hgraph, hids, ?_, fun t ht b hb href => ?_⟩
  · rw [hids]
    have hnames : (g.blocks.map Block.subject).Nodup := g.nodup_subjects
    refine List.Nodup.map_on (fun a ha b hb heq => ?_) hnames.of_map
    have hid : JsonLd.id a.subject = JsonLd.id b.subject := by simpa using heq
    have hsame := hdistinct _ _ (hasNode_of_mem_blocks hsubjects ha)
      (hasNode_of_mem_blocks hsubjects hb) hid
    exact List.inj_on_of_nodup_map hnames ha hb hsame
  · obtain ⟨hl, hid⟩ := id_eq_of_value_eq href
    exact hdistinct _ _ ⟨hl, t, ht, Or.inr rfl⟩ (hasNode_of_mem_blocks hsubjects hb) hid

theorem compile_ids_sample : ∃ g, sample.compile .standard = .ok g ∧
    (∀ x ∈ sample.iris .standard, PlainName x) ∧
    (∀ s t, g.HasNode s → g.HasNode t → JsonLd.id s = JsonLd.id t → s = t) ∧
    ∃ objects, Json.entry? (document g) "@graph" = some (.array objects) ∧
      (idsOf objects).Nodup := by
  obtain ⟨g, h⟩ : ∃ g, sample.compile .standard = .ok g := ⟨_, rfl⟩
  have hplain : ∀ x ∈ sample.iris .standard, PlainName x := by decide +kernel
  have hnone : ∀ x ∈ sample.iris .standard, ∀ t, g.HasNode t → madeName? t ≠ some x :=
    fun x hx t _ => madeName?_ne_of_plainName (hplain x hx) t
  obtain ⟨hiff, hdocument⟩ := compile_ids h
  obtain ⟨objects, hgraph, -, hnodup, -⟩ := hdocument hnone
  exact ⟨g, h, hplain, hiff.2 hnone, objects, hgraph, hnodup⟩

/-- A schema with a class in a namespace, and one whose IRI is the short name of the first. -/
def mimicking : Schema where
  name := "mimicking"
  id := "urn:mimicking"
  classes :=
    [{ name := "Thing", iri := Sh.space ++ "Thing", description := none, closed := some false,
       slots := [] },
     { name := "Other", iri := "sh:Thing", description := none, closed := some false,
       slots := [] }]
  enums := []
  types := []

/-- The two shapes are different nodes, and their node objects are called the same. -/
theorem mimicking_ids : ∃ g, mimicking.compile .standard = .ok g ∧
    (∃ s t, g.HasNode s ∧ g.HasNode t ∧ s ≠ t ∧ JsonLd.id s = JsonLd.id t) ∧
    ∃ objects, Json.entry? (document g) "@graph" = some (.array objects) ∧
      ¬ (idsOf objects).Nodup := by
  obtain ⟨g, h⟩ : ∃ g, mimicking.compile .standard = .ok g := ⟨_, rfl⟩
  obtain ⟨a, ha, hfirst⟩ := exists_block h (i := 0) rfl
  obtain ⟨b, hb, hsecond⟩ := exists_block h (i := 1) rfl
  have hne : a.subject ≠ b.subject := by
    rw [hfirst, hsecond]
    decide
  have hid : JsonLd.id a.subject = JsonLd.id b.subject := by
    rw [hfirst, hsecond]
    decide +kernel
  have hsubjects := (compile_ownership h).subjects
  refine ⟨g, h, ⟨_, _, hasNode_of_mem_blocks hsubjects ha, hasNode_of_mem_blocks hsubjects hb,
    hne, hid⟩, ?_⟩
  obtain ⟨objects, hgraph, hids⟩ :=
    ids_document fun t ht => (vocabulary_predicate h ht).plainName
  refine ⟨objects, hgraph, fun hnodup => hne ?_⟩
  rw [hids] at hnodup
  have hsame : a = b := List.inj_on_of_nodup_map hnodup ha hb (by simp only [hid])
  rw [hsame]

end SchemaShapes.Schema
