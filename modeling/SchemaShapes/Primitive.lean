import SchemaShapes.Schema.Basic

/-!
# Primitive types

The ten types with a datatype of their own, and the primitive type that a name stands for in a
schema.

* `Primitive.ofName?`: the names that are built in.
* `Schema.resolveType?`: a name followed through the types a schema declares.
-/

namespace SchemaShapes

/-- **A primitive type.** -/
inductive Primitive where
  | string
  | boolean
  | integer
  | decimal
  | float
  | double
  | date
  | dateTime
  | time
  | uri
deriving DecidableEq

namespace Primitive

/-- Every primitive type. -/
def all : List Primitive :=
  [.string, .boolean, .integer, .decimal, .float, .double, .date, .dateTime, .time, .uri]

/-- The name by which a primitive type is shown. -/
def name : Primitive → String
  | .string => "string"
  | .boolean => "boolean"
  | .integer => "integer"
  | .decimal => "decimal"
  | .float => "float"
  | .double => "double"
  | .date => "date"
  | .dateTime => "datetime"
  | .time => "time"
  | .uri => "uri"

/-- The primitive type of a built-in name. Some have a second name. -/
def ofName? (name : String) : Option Primitive :=
  match name with
  | "string" => some .string
  | "str" => some .string
  | "boolean" => some .boolean
  | "bool" => some .boolean
  | "integer" => some .integer
  | "int" => some .integer
  | "decimal" => some .decimal
  | "float" => some .float
  | "double" => some .double
  | "date" => some .date
  | "datetime" => some .dateTime
  | "time" => some .time
  | "uri" => some .uri
  | "uriorcurie" => some .uri
  | _ => none

/-- The datatype of a primitive type. -/
def datatype : Primitive → Iri
  | .string => Xsd.string
  | .boolean => Xsd.boolean
  | .integer => Xsd.integer
  | .decimal => Xsd.decimal
  | .float => Xsd.float
  | .double => Xsd.double
  | .date => Xsd.date
  | .dateTime => Xsd.dateTime
  | .time => Xsd.time
  | .uri => Xsd.anyUri

/-- The primitive type of a datatype. -/
def ofDatatype? (iri : Iri) : Option Primitive :=
  all.find? fun p => p.datatype == iri

end Primitive

namespace Schema

/-- The most names that are looked at on the way to a primitive type. -/
def maxTypeDepth : Nat := 32

/-- The primitive type at the end of a chain of parents, with the number of names that may still
be looked at. A built-in name ends the chain, and so does a type without a parent, at its
datatype. -/
def primitive? (schema : Schema) : Nat → String → Option Primitive
  | 0, _ => none
  | steps + 1, name =>
    match Primitive.ofName? name with
    | some p => some p
    | none =>
      match schema.findType? name with
      | none => none
      | some decl =>
        match decl.parent, decl.datatype with
        | some parent, _ => primitive? schema steps parent
        | none, some iri => Primitive.ofDatatype? iri
        | none, none => none

/-- **The primitive type that a name stands for**, if any. -/
def resolveType? (schema : Schema) (name : String) : Option Primitive :=
  schema.primitive? maxTypeDepth name

end Schema

end SchemaShapes
