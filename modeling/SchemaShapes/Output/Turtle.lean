import SchemaShapes.Output.Compact
import SchemaShapes.Output.Escape
import SchemaShapes.Rdf.SubjectIndex

/-!
# Turtle

The namespaces, and a block for each subject. Short names, the keyword `a`, and bare truth values
and whole numbers are used wherever they can be.
-/

namespace SchemaShapes.Output.Turtle

/-- An IRI, by its short name if it has one. -/
def iri (i : Iri) : String :=
  (compact? i).getD ("<" ++ i ++ ">")

/-- A predicate; the type has a keyword. -/
def predicate (i : Iri) : String :=
  if i = Rdf.type then "a" else iri i

/-- The digits `0` to `9`, at least one, behind an optional sign. -/
def isIntegerToken (s : String) : Bool :=
  let digits : List Char :=
    match s.toList with
    | '+' :: cs => cs
    | '-' :: cs => cs
    | cs => cs
  !digits.isEmpty && digits.all fun c => '0' ≤ c && c ≤ '9'

/-- **A literal.** Truth values and whole numbers stand bare. -/
def literal : Literal → String
  | ⟨lexical, none⟩ => quoted lexical
  | ⟨lexical, some datatype⟩ =>
    if datatype = Xsd.boolean ∧ (lexical = "true" ∨ lexical = "false") then lexical
    else if datatype = Xsd.integer ∧ isIntegerToken lexical = true then lexical
    else quoted lexical ++ "^^" ++ iri datatype

/-- A term. -/
def term : Term → String
  | .iri i => iri i
  | .blank n => Term.blankLabel n
  | .literal l => literal l

/-- The edges of a block, each on a line of its own. -/
def edge (e : Edge) : String :=
  "\n  " ++ predicate e.1 ++ " " ++ term e.2

/-- **A block**: a subject with its edges. -/
def block (b : Block) : String :=
  term b.subject ++ String.intercalate " ;" (b.edges.map edge) ++ " .\n\n"

/-- The declaration of a namespace. -/
def declaration (n : String × Iri) : String :=
  "@prefix " ++ n.1 ++ ": <" ++ n.2 ++ "> .\n"

/-- **A graph.** -/
def render (g : Graph) : String :=
  String.join (namespaces.map declaration) ++ "\n" ++ String.join (g.blocks.map block)

end SchemaShapes.Output.Turtle
