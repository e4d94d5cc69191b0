import SchemaShapes.Shape.Property

/-!
# Node shapes

The shape of one class, with a property shape for each slot.

* `ClassDecl.shapeEdges`: what the shape says besides its properties.
* `Schema.nodeShape`: the run that builds it.
-/

namespace SchemaShapes

/-- The properties that a closed shape always admits. -/
def ignoredProperties : List Term := [.iri Rdf.type]

namespace ClassDecl

/-- How many blank nodes the shape of a class takes besides its properties. -/
def taken (options : Options) (decl : ClassDecl) : Nat :=
  if options.closes decl then ignoredProperties.length else 0

/-- **What a node shape says** besides its properties, on the blank nodes from `next` on. -/
def shapeEdges (options : Options) (decl : ClassDecl) (next : Nat) : List (Iri × Fragment) :=
  [(Rdf.type, .leaf (.iri Sh.nodeShape)), (Sh.targetClass, .leaf (.iri decl.iri)),
    (Sh.closed, .leaf (.literal (.boolean (options.closes decl))))] ++
  (if options.closes decl then
    [(Sh.ignoredProperties, Fragment.collection ignoredProperties next)] else []) ++
  (if options.metadata then
    Slot.literalEdge Sh.description (decl.description.map .untyped) else [])

end ClassDecl

namespace Schema

/-- The property shapes of the slots of a class. -/
def propertyShapes (schema : Schema) (options : Options) (decl : ClassDecl) (next : Nat) :
    Run (List Fragment) :=
  Run.traverse (fun s next => schema.propertyShape options decl s.1 s.2 next)
    decl.slots.zipIdx next

/-- **The node shape** of a class, on the blank nodes from `next` on. -/
def nodeShape (schema : Schema) (options : Options) (decl : ClassDecl) (next : Nat) :
    Run Fragment :=
  Run.after (.nodeShape decl.name (options.closes decl) decl.slots.length) <|
    (schema.propertyShapes options decl (next + decl.taken options)).map fun properties =>
      .describe (.iri (options.shapeIri decl))
        (decl.shapeEdges options next ++ properties.map fun p => (Sh.property, p))

end Schema

end SchemaShapes
