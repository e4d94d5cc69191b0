import SchemaShapes.Vocabulary

/-!
# Short names of IRIs

* `compact?`: the short name of an IRI in one of the declared namespaces.
-/

namespace SchemaShapes.Output

/-- The ASCII letters, digits and the underscore. -/
def isLocalChar (c : Char) : Bool :=
  ('a' ≤ c && c ≤ 'z') || ('A' ≤ c && c ≤ 'Z') || ('0' ≤ c && c ≤ '9') || c == '_'

/-- **A local name** that needs no escape: not empty, of letters, digits and underscores, and not
beginning with a digit. -/
def isLocalName (cs : List Char) : Bool :=
  match cs with
  | [] => false
  | c :: _ => cs.all isLocalChar && !('0' ≤ c && c ≤ '9')

/-- **The short name** of an IRI: the name of its namespace, a colon and a local name. -/
def compact? (iri : Iri) : Option String :=
  namespaces.findSome? fun (name, space) =>
    match List.isPrefixOf? space.toList iri.toList with
    | some cs => if isLocalName cs then some (name ++ ":" ++ String.ofList cs) else none
    | none => none

end SchemaShapes.Output
