import SchemaShapes.Encoding
import SchemaShapes.Shape.Alternative

/-!
# Value constraints

What a range asks of values, with every name looked up, and the edges that say it.

* `Schema.constraint`: what a range asks for, or what is wrong with it.
* `Constraint.edges`: its edges on a property shape.
-/

namespace SchemaShapes

/-- What is wrong with a range. -/
inductive RangeFault where
  | noAlternatives
  | unknownClass (name : String)
  | unknownEnum (name : String)
  | noValues (name : String)
deriving DecidableEq

/-- What a message says of a range. -/
def RangeFault.message : RangeFault → String
  | .noAlternatives => "union range has no alternatives"
  | .unknownClass name => "undeclared class `" ++ name ++ "`"
  | .unknownEnum name => "undeclared enumeration `" ++ name ++ "`"
  | .noValues name => "enumeration `" ++ name ++ "` has no values"

/-- **What is wrong with a slot.** -/
inductive SlotFault where
  | unsupportedType (name : String)
  | malformedRange (fault : RangeFault)
  | unencodable (fault : Unencodable)
deriving DecidableEq

/-- What a message says of a name that is no type. -/
def unsupportedTypeMessage (name : String) : String :=
  "unsupported type `" ++ name ++ "`"

/-- What a message says of a slot. -/
def SlotFault.message : SlotFault → String
  | .unsupportedType name => unsupportedTypeMessage name
  | .malformedRange fault => "malformed range: " ++ fault.message
  | .unencodable fault => "invalid value: " ++ fault.message

/-- **What a range asks for.** -/
inductive Constraint where
  | ofDatatype (primitive : Primitive)
  | ofClass (iri : Iri)
  | ofValues (values : List Term)
  | anyOf (alternatives : List Alternative)
deriving DecidableEq

/-- The term of a value: the IRI it means, else its text. -/
def EnumValue.term (value : EnumValue) : Term :=
  match value.meaning with
  | some iri => .iri iri
  | none => .literal (.untyped value.text)

namespace Schema

/-- The primitive type of a name. -/
def typeOf (schema : Schema) (name : String) : Except SlotFault Primitive :=
  match schema.resolveType? name with
  | some p => .ok p
  | none => .error (.unsupportedType name)

/-- The IRI of a class. -/
def classOf (schema : Schema) (name : String) : Except SlotFault Iri :=
  match schema.findClass? name with
  | some decl => .ok decl.iri
  | none => .error (.malformedRange (.unknownClass name))

/-- The values of an enumeration, at least one. -/
def valuesOf (schema : Schema) (name : String) : Except SlotFault (List Term) :=
  match schema.findEnum? name with
  | none => .error (.malformedRange (.unknownEnum name))
  | some decl =>
    if decl.values.isEmpty then .error (.malformedRange (.noValues name))
    else .ok (decl.values.map EnumValue.term)

/-- A reference as an alternative. -/
def alternative (schema : Schema) : Reference → Except SlotFault Alternative
  | .toType name => (schema.typeOf name).map fun p => .ofDatatype p.datatype
  | .toClass name => (schema.classOf name).map .ofClass
  | .toEnum name => (schema.valuesOf name).map .ofValues

/-- References as alternatives, or the first fault. -/
def alternatives (schema : Schema) : List Reference → Except SlotFault (List Alternative)
  | [] => .ok []
  | r :: rest => do
    let a ← schema.alternative r
    let more ← schema.alternatives rest
    pure (a :: more)

/-- **What a range asks for.** A range of several things has at least one. -/
def constraint (schema : Schema) : Range → Except SlotFault Constraint
  | .only (.toType name) => (schema.typeOf name).map .ofDatatype
  | .only (.toClass name) => (schema.classOf name).map .ofClass
  | .only (.toEnum name) => (schema.valuesOf name).map .ofValues
  | .anyOf targets =>
    if targets.isEmpty then .error (.malformedRange .noAlternatives)
    else (schema.alternatives targets).map .anyOf

end Schema

namespace Constraint

/-- How many blank nodes the edges of a constraint take. -/
def taken : Constraint → Nat
  | .ofDatatype _ => 0
  | .ofClass _ => 0
  | .ofValues values => values.length
  | .anyOf alternatives => Alternative.disjunctionTaken alternatives

/-- **The edges of a constraint** on a property shape, on the blank nodes from `next` on. A
datatype is only ever that of a literal, so it asks for literals also where they are IRIs. -/
def edges (c : Constraint) (next : Nat) : List (Iri × Fragment) :=
  match c with
  | .ofDatatype p =>
    [(Sh.datatype, .leaf (.iri p.datatype)), (Sh.nodeKind, .leaf (.iri Sh.literalKind))]
  | .ofClass iri => [(Sh.classIri, .leaf (.iri iri)), (Sh.nodeKind, .leaf (.iri Sh.resourceKind))]
  | .ofValues values => [(Sh.inList, .collection values next)]
  | .anyOf alternatives => [(Sh.orList, Alternative.disjunction alternatives next)]

/-- The primitive type of a constraint that is one. -/
def primitive? : Constraint → Option Primitive
  | .ofDatatype p => some p
  | _ => none

end Constraint

end SchemaShapes
