import SchemaShapes.Json.Draft
import SchemaShapes.Number.Layout
import SchemaShapes.Text.Quoted

/-!
# Reading records

Records from drafts: as objects with fields by name, or as arrays with fields by place. Fields are
visited in the order in which they stand, and the first fault met is the one reported.

* `Record.read`: a record with some fields.
* `readString`, `readBool`, `readCount`, `readList`, `readOptional`: the values of fields.
-/

namespace SchemaShapes.Json

/-- **Where a draft comes from.** Of a value the size is known in advance; a text shows only what
has been read. -/
inductive Origin where
  | value
  | text
deriving DecidableEq

/-- **What stands in the place of something else.** A `bareName` is a name without what belongs to
it. -/
inductive Found where
  | null
  | bool (value : Bool)
  | integer (value : Int)
  | real (value : Number.Binary64)
  | string (value : String)
  | sequence
  | map
  | bareName

/-- **Why a draft cannot be read.** -/
inductive ReadFault where
  | notJson
  | missingField (name : String)
  | duplicateField (name : String)
  | unexpected (found : Found) (expected : String)
  | negative (value : Int)
  | notOneKey
  | unknownName (name : String) (known : List String)
  | tooFew (length : Nat) (record : String) (size : Nat)
  | tooMany (length : Nat)
  | noScalar

/-- What a message says of what is found. -/
def Found.message : Found → String
  | .null => "null"
  | .bool b => "boolean `" ++ (if b then "true" else "false") ++ "`"
  | .integer n => "integer `" ++ toString n ++ "`"
  | .real x => "floating point `" ++ Number.Layout.json.render x ++ "`"
  | .string s => "string " ++ Text.quote s
  | .sequence => "sequence"
  | .map => "map"
  | .bareName => "unit variant"

/-- What a message says of a fault; of a text that is not JSON it says nothing. -/
def ReadFault.message? : ReadFault → Option String
  | .notJson => none
  | .missingField name => some ("missing field `" ++ name ++ "`")
  | .duplicateField name => some ("duplicate field `" ++ name ++ "`")
  | .unexpected found expected =>
    some ("invalid type: " ++ found.message ++ ", expected " ++ expected)
  | .negative n => some ("invalid value: integer `" ++ toString n ++ "`, expected u64")
  | .notOneKey => some "invalid value: map, expected map with a single key"
  | .unknownName name known =>
    some ("unknown variant `" ++ name ++ "`, expected one of " ++
      String.intercalate ", " (known.map fun k => "`" ++ k ++ "`"))
  | .tooFew length record size =>
    some ("invalid length " ++ toString length ++ ", expected struct " ++ record ++ " with " ++
      toString size ++ (if size = 1 then " element" else " elements"))
  | .tooMany length =>
    some ("invalid length " ++ toString length ++ ", expected fewer elements in array")
  | .noScalar => some "data did not match any variant of untagged enum RawValue"

/-- The fault of a draft where something else is expected. -/
def Draft.mismatch (d : Draft) (expected : String) : ReadFault :=
  match d with
  | .null => .unexpected .null expected
  | .bool b => .unexpected (.bool b) expected
  | .integer n => .unexpected (.integer n) expected
  | .real x => .unexpected (.real x) expected
  | .string s => .unexpected (.string s) expected
  | .array _ _ => .unexpected .sequence expected
  | .object _ _ => .unexpected .map expected
  | .unusable => .notJson
  | .broken => .notJson

/-- A text. -/
def readString : Draft → Except ReadFault String
  | .string s => .ok s
  | d => .error (d.mismatch "a string")

/-- A truth value. -/
def readBool : Draft → Except ReadFault Bool
  | .bool b => .ok b
  | d => .error (d.mismatch "a boolean")

/-- A whole number of 64 bits without a sign. -/
def readCount : Draft → Except ReadFault UInt64
  | .integer n =>
    if n < 0 then .error (.negative n)
    else if n < UInt64.size then .ok (UInt64.ofNat n.toNat)
    else .error (.unexpected (.integer n) "u64")
  | d => .error (d.mismatch "u64")

/-- A value that may be null. -/
def readOptional {α : Type} (read : Draft → Except ReadFault α) :
    Draft → Except ReadFault (Option α)
  | .null => .ok none
  | d => (read d).map some

/-- The items of an array in order. -/
def readList {α : Type} (read : Draft → Except ReadFault α) : Draft → Except ReadFault (List α)
  | .array items closed => do
    let values ← items.mapM read
    if closed then pure values else throw .notJson
  | d => .error (d.mismatch "a sequence")

/-- **A field of a record**, under a name and perhaps another one. -/
structure RecordField (α : Type) where
  name : String
  otherName : Option String
  required : Bool
  /-- Reads the field into a record. -/
  read : Draft → α → Except ReadFault α

namespace RecordField

/-- A field with one name. -/
def of {α β : Type} (name : String) (required : Bool) (read : Draft → Except ReadFault β)
    (set : α → β → α) : RecordField α :=
  ⟨name, none, required, fun d record => (read d).map (set record)⟩

/-- Whether a key names a field. -/
def isNamed {α : Type} (f : RecordField α) (key : String) : Bool :=
  f.name == key || f.otherName == some key

end RecordField

namespace Record

/-- Reads entries into a record, and collects the names of the fields read. A key without a field
is passed over. -/
def readEntries {α : Type} (fields : List (RecordField α)) :
    List (DraftKey × Draft) → List String → α → Except ReadFault (List String × α)
  | [], seen, record => .ok (seen, record)
  | (.text key, d) :: rest, seen, record =>
    match fields.find? fun f => f.isNamed key with
    | none => if d.isWhole then readEntries fields rest seen record else .error .notJson
    | some f =>
      if seen.contains f.name then .error (.duplicateField f.name)
      else
        match f.read d record with
        | .error fault => .error fault
        | .ok record => readEntries fields rest (f.name :: seen) record
  | _, _, _ => .error .notJson

/-- Reads items into a record, each into the field at its place. -/
def readItems {α : Type} : List (RecordField α) → List Draft → α → Except ReadFault α
  | f :: fields, d :: rest, record =>
    match f.read d record with
    | .error fault => .error fault
    | .ok record => readItems fields rest record
  | _, _, record => .ok record

/-- **A record.** A missing field is a fault only after all entries are read. -/
def read {α : Type} (origin : Origin) (title : String) (fields : List (RecordField α)) (start : α) :
    Draft → Except ReadFault α
  | .object entries closed => do
    let (seen, record) ← readEntries fields entries [] start
    if closed then
      match fields.find? fun f => f.required && !seen.contains f.name with
      | some f => throw (.missingField f.name)
      | none => pure record
    else throw .notJson
  | .array items closed => do
    let record ← readItems fields items start
    if !closed then throw .notJson
    else if fields.length < items.length then
      match origin with
      | .value => throw (.tooMany items.length)
      | .text => throw .notJson
    else
      match (fields.drop items.length).findIdx? (·.required) with
      | some i => throw (.tooFew (items.length + i) title fields.length)
      | none => pure record
  | d => .error (d.mismatch ("struct " ++ title))

end Record

end SchemaShapes.Json
