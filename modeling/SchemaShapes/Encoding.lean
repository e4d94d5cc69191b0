import SchemaShapes.Number.Numeral
import SchemaShapes.Primitive
import SchemaShapes.Rdf.Term
import SchemaShapes.Text.Blank

/-!
# Values as literals

* `Primitive.encode`: a value as a literal of a primitive type.
* `Scalar.untyped`: a value without a type.
* `Scalar.encodeNaturally`: a value in the type of its own kind.
-/

namespace SchemaShapes

open Number (Binary64 Layout)

/-- **A value that a primitive type cannot hold.** A text that was read as a number stands here as
that number. -/
structure Unencodable where
  value : Scalar
  primitive : Primitive
deriving DecidableEq

/-- What a message says of a value without a literal. -/
def Unencodable.message (u : Unencodable) : String :=
  "cannot encode " ++ u.value.shown ++ " as " ++ u.primitive.name

/-- Doubles from here on are not taken for whole numbers. -/
def wholeLimit : Nat := 9000000000000000

/-- The text of a double that is taken for a whole number. Zero keeps its sign. -/
def wholeText? : Binary64 → Option String
  | .finite negative m =>
    match m.whole? with
    | some n =>
      if n < wholeLimit then some ((if negative then "-" else "") ++ toString n) else none
    | none => none
  | _ => none

/-- The text of a truth value, which two spellings each may state. -/
def booleanText? (s : String) : Option String :=
  if s == "true" || s == "True" then some "true"
  else if s == "false" || s == "False" then some "false"
  else none

/-- The text of a double as `xsd:float` and `xsd:double` have it. -/
def floatText : Binary64 → String
  | .nan => "NaN"
  | .infinite negative => if negative then "-INF" else "INF"
  | x => Layout.plain.render x

/-- The text of a double as `xsd:decimal` has it, which must be finite. -/
def decimalText? (x : Binary64) : Option String :=
  if x.isFinite then some (Layout.plain.render x) else none

namespace Primitive

/-- The three types of numbers that need not be whole. -/
def isReal : Primitive → Bool
  | .decimal => true
  | .float => true
  | .double => true
  | _ => false

/-- The text of a double in a type of numbers that need not be whole. -/
def realText? (p : Primitive) (x : Binary64) : Option String :=
  if p = .decimal then decimalText? x else some (floatText x)

/-- A value or the fault that there is none. -/
def orUnencodable (p : Primitive) (value : Scalar) : Option String → Except Unencodable String
  | some text => .ok text
  | none => .error ⟨value, p⟩

/-- **The text of a value in a primitive type.** Text that states a number is written anew; text of
other types is kept as it is, and a string may be of any value. -/
def lexical (p : Primitive) (value : Scalar) : Except Unencodable String :=
  match p, value with
  | .boolean, .bool b => .ok (if b then "true" else "false")
  | .boolean, .text s => p.orUnencodable value (booleanText? s)
  | .boolean, _ => .error ⟨value, p⟩
  | .integer, .integer n => .ok (toString n.toInt)
  | .integer, .real x => p.orUnencodable value (wholeText? x)
  | .integer, .text s =>
    p.orUnencodable value
      ((Number.integer? (Text.trim s.toList)).map fun (n : Int64) => toString n.toInt)
  | .integer, _ => .error ⟨value, p⟩
  | .string, value => .ok value.lexical
  | p, value =>
    if p.isReal then
      match value with
      | .integer n => .ok (toString n.toInt)
      | .real x => p.orUnencodable value (p.realText? x)
      | .text s =>
        match Number.real? (Text.trim s.toList) with
        | some x => p.orUnencodable (.real x) (p.realText? x)
        | none => .error ⟨value, p⟩
      | .bool _ => .error ⟨value, p⟩
    else
      match value with
      | .text s => .ok s
      | _ => .error ⟨value, p⟩

/-- **A value as a literal** of a primitive type. -/
def encode (p : Primitive) (value : Scalar) : Except Unencodable Literal :=
  (p.lexical value).map fun text => ⟨text, some p.datatype⟩

end Primitive

namespace Scalar

/-- A value as a literal without a datatype. -/
def untyped (value : Scalar) : Literal := .untyped value.lexical

/-- **A value in the type of its own kind**: text stays without a type. -/
def encodeNaturally (value : Scalar) : Except Unencodable Literal :=
  match value with
  | .bool _ => Primitive.boolean.encode value
  | .integer _ => Primitive.integer.encode value
  | .real _ => Primitive.decimal.encode value
  | .text _ => .ok value.untyped

end Scalar

end SchemaShapes
