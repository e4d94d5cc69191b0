import SchemaShapes.Json.Writer
import SchemaShapes.Output.JsonLd
import SchemaShapes.Output.NTriples
import SchemaShapes.Output.Turtle

/-!
# Output formats

* `Format.render`: the text of a graph in a format.
-/

namespace SchemaShapes.Output

/-- **A format** for graphs. -/
inductive Format where
  | turtle
  | nTriples
  | jsonLd
deriving DecidableEq

namespace Format

/-- The format of a name. -/
def ofName? (name : String) : Option Format :=
  match name with
  | "turtle" => some .turtle
  | "ntriples" => some .nTriples
  | "jsonld" => some .jsonLd
  | _ => none

/-- **The text of a graph.** -/
def render : Format → Graph → String
  | .turtle, g => Turtle.render g
  | .nTriples, g => NTriples.render g
  | .jsonLd, g => (JsonLd.document g).pretty

end Format

end SchemaShapes.Output
