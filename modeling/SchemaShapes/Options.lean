import SchemaShapes.Schema.Basic

/-!
# Compile options

* `Options.closes`, `Options.shapeIri`: what the options make of a class.
-/

namespace SchemaShapes

/-- **What a compile is asked for.** -/
structure Options where
  /-- Whether a class that does not say so itself refuses other properties. -/
  closed : Bool
  /-- Added to the IRI of a class for that of its shape. -/
  suffix : Option String
  /-- Whether names, descriptions and the order of slots are written. -/
  metadata : Bool
deriving DecidableEq

namespace Options

/-- What is done without being asked. -/
def standard : Options := ⟨true, none, true⟩

/-- Whether a class refuses other properties. -/
def closes (options : Options) (decl : ClassDecl) : Bool :=
  decl.closed.getD options.closed

/-- The IRI of the shape of a class. -/
def shapeIri (options : Options) (decl : ClassDecl) : Iri :=
  decl.iri ++ options.suffix.getD ""

end Options

end SchemaShapes
