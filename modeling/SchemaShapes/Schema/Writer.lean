import SchemaShapes.Json.Basic
import SchemaShapes.Options
import SchemaShapes.Schema.Basic

/-!
# Schemas as JSON

Fields in the order of their declaration; what is not stated is left out.

* `Schema.toJson`, `Options.toJson`: a schema and options as values.
-/

namespace SchemaShapes

/-- A value. JSON has no numbers but finite ones, and null stands for the others. -/
def Scalar.toJson : Scalar → Json
  | .bool b => .bool b
  | .integer n => .integer n.toInt
  | .real x => if x.isFinite then .real x else .null
  | .text s => .string s

/-- A field that is there if its value is. -/
def optionalField {α : Type} (name : String) (toJson : α → Json) (value : Option α) :
    List (String × Json) :=
  (value.map fun v => (name, toJson v)).toList

/-- A reference. -/
def Reference.toJson : Reference → Json
  | .toType name => .object [("type", .string name)]
  | .toClass name => .object [("class", .string name)]
  | .toEnum name => .object [("enum", .string name)]

/-- A range. -/
def Range.toJson : Range → Json
  | .only target => target.toJson
  | .anyOf targets => .object [("union", .array (targets.map Reference.toJson))]

/-- A count. -/
def countJson (n : UInt64) : Json := .integer n.toNat

/-- A slot. -/
def Slot.toJson (s : Slot) : Json :=
  .object ([("name", .string s.name), ("path", .string s.path)] ++
    optionalField "range" Range.toJson s.range ++
    optionalField "min_count" countJson s.minCount ++
    optionalField "max_count" countJson s.maxCount ++
    optionalField "default" Scalar.toJson s.default ++
    optionalField "default_type" .string s.defaultType ++
    [("typed_default", .bool s.typedDefault)] ++
    optionalField "description" .string s.description ++
    optionalField "pattern" .string s.pattern ++
    optionalField "minimum_value" Scalar.toJson s.minimum ++
    optionalField "maximum_value" Scalar.toJson s.maximum)

/-- A class. -/
def ClassDecl.toJson (c : ClassDecl) : Json :=
  .object ([("name", .string c.name), ("uri", .string c.iri)] ++
    optionalField "description" .string c.description ++
    optionalField "closed" .bool c.closed ++
    [("slots", .array (c.slots.map Slot.toJson))])

/-- A value of an enumeration. -/
def EnumValue.toJson (e : EnumValue) : Json :=
  .object ([("text", .string e.text)] ++ optionalField "meaning" .string e.meaning)

/-- An enumeration. -/
def EnumDecl.toJson (e : EnumDecl) : Json :=
  .object [("name", .string e.name),
    ("permissible_values", .array (e.values.map EnumValue.toJson))]

/-- A type. -/
def TypeDecl.toJson (t : TypeDecl) : Json :=
  .object ([("name", .string t.name)] ++ optionalField "typeof" .string t.parent ++
    optionalField "uri" .string t.datatype)

/-- **A schema.** -/
def Schema.toJson (s : Schema) : Json :=
  .object [("name", .string s.name), ("id", .string s.id),
    ("classes", .array (s.classes.map ClassDecl.toJson)),
    ("enums", .array (s.enums.map EnumDecl.toJson)),
    ("types", .array (s.types.map TypeDecl.toJson))]

/-- **Options.** -/
def Options.toJson (o : Options) : Json :=
  .object [("closed", .bool o.closed),
    ("suffix", (o.suffix.map Json.string).getD .null),
    ("emit_metadata", .bool o.metadata)]

end SchemaShapes
