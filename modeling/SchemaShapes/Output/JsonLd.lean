import SchemaShapes.Json.Basic
import SchemaShapes.Output.Compact
import SchemaShapes.Rdf.SubjectIndex

/-!
# JSON-LD

A context with the namespaces, and an object for each subject. A predicate with several objects
has them in an array.

* `JsonLd.document`: the document of a graph.
-/

namespace SchemaShapes.Output.JsonLd

/-- An IRI, by its short name if it has one. -/
def short (i : Iri) : String := (compact? i).getD i

/-- How a node is called. -/
def id : Term → String
  | .iri i => short i
  | .blank n => Term.blankLabel n
  | .literal l => l.lexical

/-- The value of a term that is an object. -/
def value : Term → Json
  | .literal ⟨lexical, none⟩ => .object [("@value", .string lexical)]
  | .literal ⟨lexical, some datatype⟩ =>
    .object [("@type", .string (short datatype)), ("@value", .string lexical)]
  | t => .object [("@id", .string (id t))]

/-- The key and value of an edge; types have a key of their own. -/
def entry (e : Edge) : String × Json :=
  if e.1 = Rdf.type then ("@type", .string (id e.2)) else (short e.1, value e.2)

/-- One more value beside one that is there: arrays grow. -/
def join (there more : Json) : Json :=
  match there with
  | .array items => .array (items ++ [more])
  | first => .array [first, more]

/-- **One more entry.** A key that is there keeps its place, and has its values joined. -/
def put (entries : List (String × Json)) (key : String) (more : Json) : List (String × Json) :=
  match entries with
  | [] => [(key, more)]
  | (k, there) :: rest =>
    if k = key then (k, join there more) :: rest else (k, there) :: put rest key more

/-- The object of a subject. -/
def node (b : Block) : Json :=
  .object (Json.sortEntries (b.edges.foldl
    (fun entries e => put entries (entry e).1 (entry e).2) [("@id", .string (id b.subject))]))

/-- The context. -/
def context : Json :=
  .object (Json.sortEntries (namespaces.map fun n => (n.1, .string n.2)))

/-- **The document of a graph.** -/
def document (g : Graph) : Json :=
  .object [("@context", context), ("@graph", .array (g.blocks.map node))]

end SchemaShapes.Output.JsonLd
