import SchemaShapes.Rdf.Graph
import SchemaShapes.Shape.Node

/-!
# Compiling schemas

A schema becomes one graph, with a node shape for each class.

* `Schema.compileRun`: the run, with what it tells.
* `Schema.compile`: the graph, or the first fault.
-/

namespace SchemaShapes.Schema

/-- The node shapes of all classes, on the blank nodes from zero on. -/
def nodeShapes (schema : Schema) (options : Options) : Run (List Fragment) :=
  Run.traverse (schema.nodeShape options) schema.classes 0

/-- **The run of a compile.** A last event tells of a graph. -/
def compileRun (schema : Schema) (options : Options) : Run Graph :=
  let run := schema.nodeShapes options
  match run.outcome with
  | .error fault => ⟨.error fault, run.taken, run.events⟩
  | .ok fragments =>
    let graph := Graph.ofList (fragments.flatMap (·.triples))
    ⟨.ok graph, run.taken, run.events ++
      [.compiled schema.name schema.classes.length schema.slotCount graph.size]⟩

/-- **The shapes graph of a schema**, or the first fault. -/
def compile (schema : Schema) (options : Options) : Except CompileFault Graph :=
  (schema.compileRun options).outcome

end SchemaShapes.Schema
