import SchemaShapes.Output.Escape
import SchemaShapes.Rdf.Graph

/-!
# N-Triples

One line for each triple, in the order of the graph.
-/

namespace SchemaShapes.Output.NTriples

/-- A term. -/
def term : Term → String
  | .iri i => "<" ++ i ++ ">"
  | .blank n => Term.blankLabel n
  | .literal ⟨lexical, none⟩ => quoted lexical
  | .literal ⟨lexical, some datatype⟩ => quoted lexical ++ "^^<" ++ datatype ++ ">"

/-- A triple, with its end of line. -/
def line (t : Triple) : String :=
  term t.subject ++ " <" ++ t.predicate ++ "> " ++ term t.object ++ " .\n"

/-- **A graph.** -/
def render (g : Graph) : String :=
  String.join (g.toList.map line)

end SchemaShapes.Output.NTriples
