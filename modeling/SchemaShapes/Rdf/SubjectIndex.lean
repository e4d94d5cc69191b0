import Std.Data.HashMap
import Std.Data.HashSet
import SchemaShapes.Rdf.Graph
import SchemaShapes.Text.Quoted

/-!
# Graphs by subject

The edges that leave each subject, and the walk along an RDF collection.

* `Graph.blocks`: the triples of a graph, those of one subject together.
* `SubjectIndex.edges`: the edges of a subject in the order of the graph.
* `SubjectIndex.listItems`: the items of a collection, or why it is none.
-/

namespace SchemaShapes

/-- What leaves a subject: a predicate and an object. -/
abbrev Edge := Iri × Term

/-- **A subject with its edges.** -/
structure Block where
  subject : Term
  edges : List Edge

/-- Neighbouring triples of one subject, put together. -/
def blocksOf (ts : List Triple) : List Block :=
  ts.foldr
    (fun t rest =>
      match rest with
      | [] => [⟨t.subject, [(t.predicate, t.object)]⟩]
      | b :: bs =>
        if t.subject = b.subject then ⟨b.subject, (t.predicate, t.object) :: b.edges⟩ :: bs
        else ⟨t.subject, [(t.predicate, t.object)]⟩ :: rest) []

/-- **The blocks** of a graph, one for each subject, in order. -/
def Graph.blocks (g : Graph) : List Block := blocksOf g.toList

/-- **An index** from each subject to its edges. -/
structure SubjectIndex where
  table : Std.HashMap Term (List Edge)

/-- Why a walk along a collection stops, and at which node. -/
inductive ListFault where
  | missingEdge (cell : Term) (predicate : Iri)
  | cycle (cell : Term)
  | tooLong (cell : Term)

/-- A term as messages show it. -/
def Term.shown : Term → String
  | .iri i => "<" ++ i ++ ">"
  | .blank n => blankLabel n
  | .literal l => Text.quote l.lexical

namespace SubjectIndex

/-- The index of a graph. -/
def ofGraph (g : Graph) : SubjectIndex :=
  ⟨Std.HashMap.ofList (g.blocks.map fun b => (b.subject, b.edges))⟩

/-- The edges of a subject in order, none if it is no subject. -/
def edges (index : SubjectIndex) (subject : Term) : List Edge :=
  index.table.getD subject []

/-- The first object of a subject and a predicate. -/
def object? (index : SubjectIndex) (subject : Term) (predicate : Iri) : Option Term :=
  ((index.edges subject).find? fun e => e.1 == predicate).map (·.2)

/-- The most cells that a walk visits. -/
def maxListLength : Nat := 65536

/-- **The walk along a collection** from a cell on, with the number of cells that may still be
visited, the cells visited and their items in reverse. A full walk is noticed before a cycle, a
cycle before a missing edge. -/
def walk (index : SubjectIndex) :
    Nat → Term → Std.HashSet Term → List Term → Except ListFault (List Term)
  | budget, cell, visited, items =>
    if cell = .iri Rdf.nil then .ok items.reverse
    else
      match budget with
      | 0 => .error (.tooLong cell)
      | budget + 1 =>
        if visited.contains cell then .error (.cycle cell)
        else
          match index.object? cell Rdf.first with
          | none => .error (.missingEdge cell Rdf.first)
          | some item =>
            match index.object? cell Rdf.rest with
            | none => .error (.missingEdge cell Rdf.rest)
            | some next => walk index budget next (visited.insert cell) (item :: items)

/-- **The items of a collection** in order. -/
def listItems (index : SubjectIndex) (head : Term) : Except ListFault (List Term) :=
  index.walk maxListLength head {} []

end SubjectIndex

/-- What a message says of a fault. -/
def ListFault.message : ListFault → String
  | .missingEdge cell predicate =>
    "list node " ++ cell.shown ++ " has no `" ++ predicate ++ "` edge"
  | .cycle cell => "malformed list at " ++ cell.shown ++ ": cycle"
  | .tooLong cell =>
    "malformed list at " ++ cell.shown ++ ": longer than " ++
      toString SubjectIndex.maxListLength ++ " cells"

end SchemaShapes
