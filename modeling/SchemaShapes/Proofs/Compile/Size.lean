import SchemaShapes.Proofs.Compile.Nodes
import SchemaShapes.Proofs.Shape.Size

/-!
# How large graphs of shapes are

What the builders write is read off the schema, and if no two classes share an IRI, none of it is
written twice. So the size of a graph is known before it is built.

* `Schema.tripleCount`, `Schema.nodeCount`: what the classes come to together.
* `Schema.nodup_shapes_triples`: the node shapes of different IRIs have no triple in common.
* `Schema.compile_size`: the graph is as large as its shapes are together.
-/

namespace SchemaShapes.Schema

/-- **How many triples a schema is written in**, all its classes together. -/
def tripleCount (schema : Schema) (options : Options) : Nat :=
  (schema.classes.map (schema.classTriples options)).sum

/-- **How many blank nodes a schema takes**, all its classes together. -/
def nodeCount (schema : Schema) (options : Options) : Nat :=
  (schema.classes.map (schema.classNodes options)).sum

variable {schema : Schema} {options : Options} {g : Graph} {shapes : List Fragment}

theorem map_node_nodeShapes (hs : (schema.nodeShapes options).outcome = .ok shapes) :
    shapes.map (·.node) = schema.classes.map fun decl => .iri (options.shapeIri decl) := by
  refine Run.map_traverse (fun decl n f hf => ?_) hs
  obtain ⟨properties, -, rfl⟩ := nodeShape_ok hf
  rfl

/-- Classes with different IRIs have shapes with different IRIs, since all get the same suffix. -/
theorem nodup_shapeIris (options : Options) (hiris : (schema.classes.map (·.iri)).Nodup) :
    (schema.classes.map fun decl => Term.iri (options.shapeIri decl)).Nodup := by
  have hinjective : Function.Injective fun iri : Iri =>
      Term.iri (iri ++ options.suffix.getD "") := by
    intro a b hab
    exact String.append_left_inj _ |>.1 (Term.iri.inj hab)
  have hmap := hiris.map hinjective
  rw [List.map_map] at hmap
  exact hmap

theorem nodup_roots (hs : (schema.nodeShapes options).outcome = .ok shapes)
    (hiris : (schema.classes.map (·.iri)).Nodup) : (shapes.map (·.node)).Nodup := by
  rw [map_node_nodeShapes hs]
  exact nodup_shapeIris options hiris

/-- **No triple is written twice**, neither in one node shape nor in two. -/
theorem nodup_shapes_triples (h : schema.compile options = .ok g)
    (hs : (schema.nodeShapes options).outcome = .ok shapes)
    (hiris : (schema.classes.map (·.iri)).Nodup) : (shapes.flatMap (·.triples)).Nodup := by
  refine (compile_forest h hs).nodup_triples (nodup_roots hs hiris) fun f hf => ?_
  obtain ⟨_, _, -, -, hrun⟩ := Run.exists_of_mem_traverse hs hf
  exact nodup_nodeShape hrun

/-- **The size of a graph of shapes.** The graph is that of the triples which the builders write,
for each class as many as its declaration says, and the run takes as many blank nodes as the
declarations say. The graph is never larger, and if no two classes share an IRI, no triple is
written twice and the graph is as large. -/
theorem compile_size (h : schema.compile options = .ok g) :
    ∃ shapes, (schema.nodeShapes options).outcome = .ok shapes ∧
      g = Graph.ofList (shapes.flatMap (·.triples)) ∧
      shapes.map (·.triples.length) = schema.classes.map (schema.classTriples options) ∧
      (schema.compileRun options).taken = schema.nodeCount options ∧
      g.size ≤ schema.tripleCount options ∧
      ((schema.classes.map (·.iri)).Nodup →
        (shapes.flatMap (·.triples)).Nodup ∧ g.size = schema.tripleCount options) := by
  obtain ⟨shapes, hs, hg, htaken⟩ := compile_ok h
  have hsizes : shapes.map (·.triples.length) =
      schema.classes.map (schema.classTriples options) := by
    refine Run.map_traverse (fun decl n f hf => ?_) hs
    exact (size_nodeShape hf).1
  have hnodes : (schema.nodeShapes options).taken = 0 + schema.nodeCount options := by
    refine Run.taken_traverse (fun decl n f hf => ?_) hs
    exact (size_nodeShape hf).2
  have hlength : (shapes.flatMap (·.triples)).length = schema.tripleCount options := by
    rw [List.length_flatMap, hsizes, tripleCount]
  refine ⟨shapes, hs, hg, hsizes, ?_, ?_, fun hiris => ?_⟩
  · rw [htaken, hnodes, Nat.zero_add]
  · rw [hg, ← hlength]
    exact Graph.size_ofList_le _
  · have hnodup := nodup_shapes_triples h hs hiris
    refine ⟨hnodup, ?_⟩
    rw [hg, Graph.size_ofList hnodup, hlength]

/-- The sample with another IRI for its second class. -/
def apart : Schema :=
  { sample with classes := sample.classes.modify 1 fun decl => { decl with iri := "urn:State" } }

theorem compile_size_sample : ∃ g, apart.compile .standard = .ok g ∧
    (apart.classes.map (·.iri)).Nodup ∧ g.size = 46 ∧ (apart.compileRun .standard).taken = 14 := by
  obtain ⟨g, h⟩ : ∃ g, apart.compile .standard = .ok g := ⟨_, rfl⟩
  obtain ⟨shapes, -, -, -, hnodes, -, hsize⟩ := compile_size h
  have hiris : (apart.classes.map (·.iri)).Nodup := by decide
  have htriples : apart.tripleCount .standard = 46 := rfl
  have hcount : apart.nodeCount .standard = 14 := rfl
  exact ⟨g, h, hiris, (hsize hiris).2.trans htriples, hnodes.trans hcount⟩

end SchemaShapes.Schema
