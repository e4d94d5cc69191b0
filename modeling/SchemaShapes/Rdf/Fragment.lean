import SchemaShapes.Rdf.Term

/-!
# Fragments

What a builder hands on: a node, and the triples that describe it in the order in which they are
written.

* `Fragment.describe`: a node with its edges, each followed by what describes its object.
* `Fragment.collection`: an RDF collection, one blank node for each item.
-/

namespace SchemaShapes

/-- **A node and the triples that describe it.** -/
structure Fragment where
  node : Term
  triples : List Triple
deriving DecidableEq

namespace Fragment

/-- A node without any description. -/
def leaf (node : Term) : Fragment := ⟨node, []⟩

/-- **A node with edges.** Each edge is followed by the description of its object. -/
def describe (node : Term) (edges : List (Iri × Fragment)) : Fragment :=
  ⟨node, edges.flatMap fun edge => ⟨node, edge.1, edge.2.node⟩ :: edge.2.triples⟩

/-- The cell numbered `cell` of a collection that ends before `stop`: `rdf:nil` stands for the
one behind the last. -/
def cellOrNil (stop cell : Nat) : Term :=
  if cell < stop then .blank cell else .iri Rdf.nil

/-- The two triples of each cell of a collection, the first cell being numbered `next`. -/
def cells (items : List Term) (next : Nat) : List Triple :=
  let stop := next + items.length
  (items.zipIdx next).flatMap fun (item, cell) =>
    [⟨.blank cell, Rdf.first, item⟩, ⟨.blank cell, Rdf.rest, cellOrNil stop (cell + 1)⟩]

/-- **An RDF collection** on the blank nodes from `next` on, as many as there are items. Without
items it is `rdf:nil`. -/
def collection (items : List Term) (next : Nat) : Fragment :=
  ⟨cellOrNil (next + items.length) next, cells items next⟩

@[simp] theorem cells_nil (next : Nat) : cells [] next = [] := rfl

theorem cells_cons (item : Term) (items : List Term) (next : Nat) :
    cells (item :: items) next =
      ⟨.blank next, Rdf.first, item⟩ ::
        ⟨.blank next, Rdf.rest, (collection items (next + 1)).node⟩ ::
          cells items (next + 1) := by
  have h : next + (items.length + 1) = next + 1 + items.length := by omega
  simp [cells, collection, List.zipIdx_cons, h]

/-- A collection has two triples for each item. -/
theorem length_cells (items : List Term) (next : Nat) :
    (cells items next).length = 2 * items.length := by
  induction items generalizing next with
  | nil => rfl
  | cons item items ih => simp only [cells_cons, List.length_cons, ih]; omega

end Fragment

end SchemaShapes
