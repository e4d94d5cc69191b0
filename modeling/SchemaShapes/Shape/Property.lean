import SchemaShapes.Options
import SchemaShapes.Shape.Run

/-!
# Property shapes

The shape of one slot. First its names are looked up, then its values are written in the types
found, and last comes the shape, which cannot fail.

* `Slot.typing`, `Slot.values`: the two steps that can fail, whatever the options are.
* `Slot.propertyEdges`: what the shape says.
* `Schema.propertyShape`: the run that builds it.
-/

namespace SchemaShapes

/-- **What the names of a slot stand for**: the constraint of its range, and the primitive type
of its default and bounds. -/
structure Typing where
  constraint : Option Constraint
  primitive : Option Primitive
deriving DecidableEq

/-- **The values of a slot** as literals. -/
structure SlotValues where
  default : Option Literal
  minimum : Option Literal
  maximum : Option Literal
deriving DecidableEq

/-- An optional part that may fail. -/
def eachOption {α β ε : Type} (f : α → Except ε β) : Option α → Except ε (Option β)
  | none => .ok none
  | some a => (f a).map some

namespace Slot

/-- **The names of a slot**, first those of the range. -/
def typing (schema : Schema) (slot : Slot) : Except SlotFault Typing := do
  let constraint ← eachOption schema.constraint slot.range
  let named ← eachOption schema.typeOf slot.defaultType
  pure ⟨constraint, named <|> constraint.bind Constraint.primitive?⟩

/-- The type in which the default is written. -/
def defaultPrimitive (slot : Slot) (typing : Typing) : Option Primitive :=
  if slot.typedDefault then typing.primitive else none

/-- Whether there is a default that is written without a type. -/
def hasUntypedDefault (slot : Slot) (typing : Typing) : Bool :=
  slot.default.isSome && (slot.defaultPrimitive typing).isNone

/-- The literal of a default. -/
def encodeDefault (slot : Slot) (typing : Typing) (value : Scalar) :
    Except Unencodable Literal :=
  match slot.defaultPrimitive typing with
  | some p => p.encode value
  | none => .ok value.untyped

/-- The literal of a bound. -/
def encodeBound (typing : Typing) (value : Scalar) : Except Unencodable Literal :=
  match typing.primitive with
  | some p => p.encode value
  | none => value.encodeNaturally

/-- **The values of a slot**, first the default. -/
def values (slot : Slot) (typing : Typing) : Except Unencodable SlotValues := do
  let default ← eachOption (slot.encodeDefault typing) slot.default
  let minimum ← eachOption (encodeBound typing) slot.minimum
  let maximum ← eachOption (encodeBound typing) slot.maximum
  pure ⟨default, minimum, maximum⟩

/-- An edge to a literal, if there is one. -/
def literalEdge (predicate : Iri) (literal : Option Literal) : List (Iri × Fragment) :=
  (literal.map fun l => (predicate, Fragment.leaf (.literal l))).toList

/-- The edges that only describe a slot. -/
def metadataEdges (slot : Slot) (order : Nat) : List (Iri × Fragment) :=
  literalEdge Sh.name (some (.untyped slot.name)) ++
    literalEdge Sh.description (slot.description.map .untyped) ++
    literalEdge Sh.order (some (.integer order))

/-- **What a property shape says**, on the blank nodes from `next` on. -/
def propertyEdges (options : Options) (slot : Slot) (order : Nat) (typing : Typing)
    (values : SlotValues) (next : Nat) : List (Iri × Fragment) :=
  (Sh.path, Fragment.leaf (.iri slot.path)) ::
    ((if options.metadata then slot.metadataEdges order else []) ++
    literalEdge Sh.minCount (slot.minCount.map fun n => .integer n.toNat) ++
    literalEdge Sh.maxCount (slot.maxCount.map fun n => .integer n.toNat) ++
    (typing.constraint.map fun c => c.edges next).getD [] ++
    literalEdge Sh.defaultValue values.default ++
    literalEdge Sh.pattern (slot.pattern.map .untyped) ++
    literalEdge Sh.minInclusive values.minimum ++
    literalEdge Sh.maxInclusive values.maximum)

end Slot

/-- How many blank nodes the lists of a property shape take. -/
def Typing.taken (typing : Typing) : Nat :=
  (typing.constraint.map Constraint.taken).getD 0

/-- What is told of a default. -/
def Slot.defaultEvents (decl : ClassDecl) (slot : Slot) (typing : Typing) : List Event :=
  if slot.hasUntypedDefault typing then [.untypedDefault decl.name slot.name] else []

/-- **The property shape** of the slot number `order` of a class, on the blank nodes from `next`
on. Its own node is taken before anything can fail, and those of its lists before its values. -/
def Schema.propertyShape (schema : Schema) (options : Options) (decl : ClassDecl) (slot : Slot)
    (order next : Nat) : Run Fragment :=
  let fault (cause : SlotFault) : CompileFault := ⟨decl.name, slot.name, cause⟩
  Run.after (.propertyShape decl.name slot.name) <|
    match slot.typing schema with
    | .error cause => ⟨.error (fault cause), next + 1, []⟩
    | .ok typing =>
      let taken := next + 1 + typing.taken
      let events := slot.defaultEvents decl typing
      match slot.values typing with
      | .error cause => ⟨.error (fault (.unencodable cause)), taken, events⟩
      | .ok values =>
        ⟨.ok (.describe (.blank next)
          (slot.propertyEdges options order typing values (next + 1))), taken, events⟩

end SchemaShapes
