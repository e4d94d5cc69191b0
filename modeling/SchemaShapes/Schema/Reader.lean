import SchemaShapes.Json.Record
import SchemaShapes.Options
import SchemaShapes.Schema.Basic

/-!
# Schemas from JSON

* `Schema.read`, `Options.read`: a schema and options from a draft.
* `Schema.ofJson`: a schema from a value.
* `Schema.ofText`: a schema from a text, with the first fault of the data or the text.
-/

namespace SchemaShapes

open Json (Draft Origin RecordField ReadFault readString readBool readCount readList readOptional)

/-- A value that is neither a container nor null. A whole number that 64 bits with a sign do not
hold is taken as a double. -/
def Scalar.read : Draft → Except ReadFault Scalar
  | .bool b => .ok (.bool b)
  | .integer n =>
    .ok (if Number.fitsInt64 n then .integer (Int64.ofInt n) else .real (Number.Binary64.ofInt n))
  | .real x => .ok (.real x)
  | .string s => .ok (.text s)
  | d => if d.toJson?.isSome then .error .noScalar else .error .notJson

/-- **One of several names** with what belongs to it: an object with one entry. A text shows that
there is another entry only after the first is read. -/
def readChoice {α : Type} (origin : Origin) (known : List String)
    (read : String → Option (Draft → Except ReadFault α)) : Draft → Except ReadFault α
  | .string s =>
    match read s with
    | some _ => .error (.unexpected .bareName "newtype variant")
    | none => .error (.unknownName s known)
  | .object [] _ => .error (if origin = .value then .notOneKey else .notJson)
  | .object ((.unusable, _) :: _) _ => .error .notJson
  | .object ((.text key, d) :: rest) closed =>
    if origin = .value ∧ rest.isEmpty = false then .error .notOneKey
    else
      match read key with
      | none => .error (.unknownName key known)
      | some f => do
        let a ← f d
        if rest.isEmpty && closed then pure a else throw .notJson
  | d => .error (if origin = .value then d.mismatch "string or map" else .notJson)

/-- The names of what a reference is to. -/
def Reference.kinds : List String := ["type", "class", "enum"]

/-- The reference of a kind. -/
def Reference.ofKind? (kind : String) : Option (String → Reference) :=
  match kind with
  | "type" => some .toType
  | "class" => some .toClass
  | "enum" => some .toEnum
  | _ => none

/-- A reference. -/
def Reference.read (origin : Origin) : Draft → Except ReadFault Reference :=
  readChoice origin Reference.kinds fun kind =>
    (Reference.ofKind? kind).map fun make d => (readString d).map make

/-- A range. -/
def Range.read (origin : Origin) : Draft → Except ReadFault Range :=
  readChoice origin (Reference.kinds ++ ["union"]) fun kind =>
    if kind = "union" then
      some fun d => (readList (Reference.read origin) d).map .anyOf
    else (Reference.ofKind? kind).map fun make d => (readString d).map fun n => .only (make n)

/-- The fields of a slot. -/
def Slot.fields (origin : Origin) : List (RecordField Slot) :=
  [.of "name" true readString fun s v => { s with name := v },
    .of "path" true readString fun s v => { s with path := v },
    .of "range" false (readOptional (Range.read origin)) fun s v => { s with range := v },
    .of "min_count" false (readOptional readCount) fun s v => { s with minCount := v },
    .of "max_count" false (readOptional readCount) fun s v => { s with maxCount := v },
    { RecordField.of "default" false (readOptional Scalar.read)
        (fun (s : Slot) v => { s with default := v }) with otherName := some "ifabsent" },
    .of "default_type" false (readOptional readString) fun s v => { s with defaultType := v },
    .of "typed_default" false readBool fun s v => { s with typedDefault := v },
    .of "description" false (readOptional readString) fun s v => { s with description := v },
    .of "pattern" false (readOptional readString) fun s v => { s with pattern := v },
    .of "minimum_value" false (readOptional Scalar.read) fun s v => { s with minimum := v },
    .of "maximum_value" false (readOptional Scalar.read) fun s v => { s with maximum := v }]

/-- A slot. -/
def Slot.read (origin : Origin) : Draft → Except ReadFault Slot :=
  Json.Record.read origin "SchemaSlot" (Slot.fields origin) (.bare "" "")

/-- The fields of a class. -/
def ClassDecl.fields (origin : Origin) : List (RecordField ClassDecl) :=
  [.of "name" true readString fun c v => { c with name := v },
    .of "uri" true readString fun c v => { c with iri := v },
    .of "description" false (readOptional readString) fun c v => { c with description := v },
    .of "closed" false (readOptional readBool) fun c v => { c with closed := v },
    .of "slots" false (readList (Slot.read origin)) fun c v => { c with slots := v }]

/-- A class. -/
def ClassDecl.read (origin : Origin) : Draft → Except ReadFault ClassDecl :=
  Json.Record.read origin "SchemaClass" (ClassDecl.fields origin) ⟨"", "", none, none, []⟩

/-- A value of an enumeration. -/
def EnumValue.read (origin : Origin) : Draft → Except ReadFault EnumValue :=
  Json.Record.read origin "PermissibleValue"
    [.of "text" true readString fun e v => { e with text := v },
      .of "meaning" false (readOptional readString) fun e v => { e with meaning := v }]
    ⟨"", none⟩

/-- An enumeration. -/
def EnumDecl.read (origin : Origin) : Draft → Except ReadFault EnumDecl :=
  Json.Record.read origin "EnumDefinition"
    [.of "name" true readString fun e v => { e with name := v },
      .of "permissible_values" false (readList (EnumValue.read origin))
        fun e v => { e with values := v }]
    ⟨"", []⟩

/-- A type. -/
def TypeDecl.read (origin : Origin) : Draft → Except ReadFault TypeDecl :=
  Json.Record.read origin "TypeDefinition"
    [.of "name" true readString fun t v => { t with name := v },
      .of "typeof" false (readOptional readString) fun t v => { t with parent := v },
      .of "uri" false (readOptional readString) fun t v => { t with datatype := v }]
    ⟨"", none, none⟩

/-- **A schema.** -/
def Schema.read (origin : Origin) : Draft → Except ReadFault Schema :=
  Json.Record.read origin "SchemaModel"
    [.of "name" false readString fun s v => { s with name := v },
      .of "id" false readString fun s v => { s with id := v },
      .of "classes" false (readList (ClassDecl.read origin)) fun s v => { s with classes := v },
      .of "enums" false (readList (EnumDecl.read origin)) fun s v => { s with enums := v },
      .of "types" false (readList (TypeDecl.read origin)) fun s v => { s with types := v }]
    .empty

/-- **Options.** -/
def Options.read (origin : Origin) : Draft → Except ReadFault Options :=
  Json.Record.read origin "CompileOptions"
    [.of "closed" false readBool fun o v => { o with closed := v },
      .of "suffix" false (readOptional readString) fun o v => { o with suffix := v },
      .of "emit_metadata" false readBool fun o v => { o with metadata := v }]
    .standard

namespace Json

/-- Reads a JSON value, whose objects are maps. -/
def readValue {α : Type} (read : Origin → Draft → Except ReadFault α) (j : Json) :
    Except ReadFault α :=
  read .value (.ofJson j.sorted)

/-- **Reads a text.** A fault of the data counts before one of the text that stands behind it. -/
def readText {α : Type} (read : Origin → Draft → Except ReadFault α) (text : String) :
    Except ReadFault α := do
  let (draft, all) := Draft.ofText text
  let a ← read .text draft
  if all then pure a else throw .notJson

end Json

/-- A schema from a value. -/
def Schema.ofJson (j : Json) : Except ReadFault Schema := Json.readValue Schema.read j

/-- A schema from a text. -/
def Schema.ofText (text : String) : Except ReadFault Schema := Json.readText Schema.read text

end SchemaShapes
