import SchemaShapes.Rdf.Fragment
import SchemaShapes.Rdf.SubjectIndex

/-!
# Alternatives

The alternatives of a disjunction, their shapes in a collection, and their reading from a graph.

* `Alternative.disjunction`: a collection of shapes, one for each alternative.
* `SubjectIndex.alternatives`: what the shapes of such a collection ask for.
-/

namespace SchemaShapes

/-- **One alternative** of a disjunction: the values of a datatype, the instances of a class, or
some values one by one. -/
inductive Alternative where
  | ofDatatype (iri : Iri)
  | ofClass (iri : Iri)
  | ofValues (values : List Term)
deriving DecidableEq

namespace Alternative

/-- The predicate by which a shape asks for an alternative. -/
def predicate : Alternative → Iri
  | .ofDatatype _ => Sh.datatype
  | .ofClass _ => Sh.classIri
  | .ofValues _ => Sh.inList

/-- How many blank nodes the shape of an alternative takes. -/
def taken : Alternative → Nat
  | .ofValues values => 1 + values.length
  | _ => 1

/-- What a shape asks for, on the blank nodes from `next` on. -/
def target (a : Alternative) (next : Nat) : Fragment :=
  match a with
  | .ofDatatype iri => .leaf (.iri iri)
  | .ofClass iri => .leaf (.iri iri)
  | .ofValues values => .collection values next

/-- The shape of an alternative, on the blank nodes from `next` on. -/
def shape (a : Alternative) (next : Nat) : Fragment :=
  .describe (.blank next) [(a.predicate, a.target (next + 1))]

/-- The shapes of alternatives in order. -/
def shapes : List Alternative → Nat → List Fragment
  | [], _ => []
  | a :: rest, next => a.shape next :: shapes rest (next + a.taken)

/-- How many blank nodes the shapes of alternatives take. -/
def shapesTaken (alternatives : List Alternative) : Nat :=
  alternatives.foldr (fun a more => a.taken + more) 0

/-- How many blank nodes a disjunction takes: those of the shapes, and a cell for each. -/
def disjunctionTaken (alternatives : List Alternative) : Nat :=
  shapesTaken alternatives + alternatives.length

/-- **The collection of the shapes**, followed by the shapes. The cells of the collection come
behind the nodes of the shapes. -/
def disjunction (alternatives : List Alternative) (next : Nat) : Fragment :=
  let members := shapes alternatives next
  let list := Fragment.collection (members.map (·.node)) (next + shapesTaken alternatives)
  ⟨list.node, list.triples ++ members.flatMap (·.triples)⟩

end Alternative

namespace SubjectIndex

/-- What one edge of a shape asks for: classes and datatypes as they are, and the values of an
enumeration one by one. -/
def targets (index : SubjectIndex) (edge : Edge) : Except ListFault (List Edge) :=
  if edge.1 == Sh.classIri || edge.1 == Sh.datatype then .ok [edge]
  else if edge.1 == Sh.inList then
    (index.listItems edge.2).map fun values => values.map fun value => (Rdf.first, value)
  else .ok []

/-- **The alternatives of a disjunction**, read from the collection at its head. -/
def alternatives (index : SubjectIndex) (head : Term) : Except ListFault (List Edge) := do
  let members ← index.listItems head
  let found ← (members.flatMap index.edges).mapM index.targets
  pure found.flatten

end SubjectIndex

end SchemaShapes
