import SchemaShapes.Number.Layout
import SchemaShapes.Text.Quoted
import SchemaShapes.Vocabulary

/-!
# Schemas

A schema declares classes with slots, enumerations and types. Names bind to the first declaration
of their kind.

* `Schema.findClass?`, `Schema.findEnum?`, `Schema.findType?`: what a name is bound to.
* `Scalar.lexical`: the text of a value that has no type.
-/

namespace SchemaShapes

/-- **A value** as a schema states it: dates, times and IRIs are text. -/
inductive Scalar where
  | bool (value : Bool)
  | integer (value : Int64)
  | real (value : Number.Binary64)
  | text (value : String)
deriving DecidableEq

namespace Scalar

/-- The text of a value that has no type. -/
def lexical : Scalar → String
  | .bool b => if b then "true" else "false"
  | .integer n => toString n.toInt
  | .real x => Number.Layout.plain.render x
  | .text s => s

/-- A value as messages show it, with its kind. -/
def shown : Scalar → String
  | .bool b => "Bool(" ++ (if b then "true" else "false") ++ ")"
  | .integer n => "Integer(" ++ toString n.toInt ++ ")"
  | .real x => "Float(" ++ Number.Layout.message.render x ++ ")"
  | .text s => "Text(" ++ Text.quote s ++ ")"

end Scalar

/-- **A reference** to a type, a class or an enumeration by its name. -/
inductive Reference where
  | toType (name : String)
  | toClass (name : String)
  | toEnum (name : String)
deriving DecidableEq

/-- **A range**: what the values of a slot are, one thing or any one of several. -/
inductive Range where
  | only (target : Reference)
  | anyOf (targets : List Reference)
deriving DecidableEq

/-- **A slot** of a class. -/
structure Slot where
  name : String
  /-- The IRI of the property. -/
  path : Iri
  range : Option Range
  minCount : Option UInt64
  maxCount : Option UInt64
  /-- The value assumed when the slot is absent. -/
  default : Option Scalar
  /-- The name of a type for the default and the bounds, before that of the range. -/
  defaultType : Option String
  /-- Whether the default is written in a type if there is one. -/
  typedDefault : Bool
  description : Option String
  /-- A regular expression that the text of a value matches. -/
  pattern : Option String
  minimum : Option Scalar
  maximum : Option Scalar
deriving DecidableEq

/-- A slot with only a name and a path. -/
def Slot.bare (name : String) (path : Iri) : Slot :=
  ⟨name, path, none, none, none, none, none, true, none, none, none, none⟩

/-- **A class** with its slots in order. -/
structure ClassDecl where
  name : String
  iri : Iri
  description : Option String
  /-- Whether other properties are refused; without it the options decide. -/
  closed : Option Bool
  slots : List Slot
deriving DecidableEq

/-- One value of an enumeration: a text, and the IRI that it means if there is one. -/
structure EnumValue where
  text : String
  meaning : Option Iri
deriving DecidableEq

/-- **An enumeration** with its values in order. -/
structure EnumDecl where
  name : String
  values : List EnumValue
deriving DecidableEq

/-- **A type**: derived from a parent, or else naming a datatype. -/
structure TypeDecl where
  name : String
  parent : Option String
  datatype : Option Iri
deriving DecidableEq

/-- **A schema.** -/
structure Schema where
  name : String
  id : String
  classes : List ClassDecl
  enums : List EnumDecl
  types : List TypeDecl
deriving DecidableEq

namespace Schema

/-- The schema without any declaration. -/
def empty : Schema := ⟨"", "", [], [], []⟩

/-- The first class of a name. -/
def findClass? (schema : Schema) (name : String) : Option ClassDecl :=
  schema.classes.find? fun c => c.name == name

/-- The first enumeration of a name. -/
def findEnum? (schema : Schema) (name : String) : Option EnumDecl :=
  schema.enums.find? fun e => e.name == name

/-- The first type of a name. -/
def findType? (schema : Schema) (name : String) : Option TypeDecl :=
  schema.types.find? fun t => t.name == name

/-- How many slots all classes have together. -/
def slotCount (schema : Schema) : Nat :=
  (schema.classes.flatMap (·.slots)).length

end Schema

end SchemaShapes
