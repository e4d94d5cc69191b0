import SchemaShapes.Json.Basic
import SchemaShapes.Json.Token

/-!
# JSON as far as it can be read

A draft is a JSON value, or what there is of one in a text that stops being JSON somewhere. A
reader that visits a draft in order meets the faults of the data before the place where the text
breaks off, and that place before anything behind it.

* `Draft.ofText`: the draft a text holds.
* `Draft.ofJson`: a value as a draft without faults.
* `Draft.toJson?`: the value of a draft without faults.
* `Draft.maxNesting`: how deep a text may nest what is not just passed over.
-/

namespace SchemaShapes.Json

/-- **A key**: a text, or a string that is no text and can only be passed over. -/
inductive DraftKey where
  | text (value : String)
  | unusable

/-- **A draft.** A container that is not `closed` breaks off behind its last item; `broken` stands
where a value should be and none can be read; `unusable` stands for no value and can only be passed
over: a string that is no text, a number past the greatest double, a container nested too deep. -/
inductive Draft where
  | null
  | bool (value : Bool)
  | integer (value : Int)
  | real (value : Number.Binary64)
  | string (value : String)
  | array (items : List Draft) (closed : Bool)
  | object (entries : List (DraftKey × Draft)) (closed : Bool)
  | unusable
  | broken

namespace Draft

/-- **Nothing breaks off** within the draft. A container that holds a break is not closed. -/
def isWhole : Draft → Bool
  | .array _ closed => closed
  | .object _ closed => closed
  | .broken => false
  | _ => true

mutual

/-- A value as a draft. -/
def ofJson : Json → Draft
  | .null => .null
  | .bool b => .bool b
  | .integer n => .integer n
  | .real x => .real x
  | .string s => .string s
  | .array items => .array (ofItems items) true
  | .object entries => .object (ofEntries entries) true

/-- `ofJson` for each item. -/
def ofItems : List Json → List Draft
  | [] => []
  | j :: rest => ofJson j :: ofItems rest

/-- `ofJson` for the value of each entry. -/
def ofEntries : List (String × Json) → List (DraftKey × Draft)
  | [] => []
  | (k, j) :: rest => (.text k, ofJson j) :: ofEntries rest

end

mutual

/-- The value of a draft, if it has no fault. -/
def toJson? : Draft → Option Json
  | .null => some .null
  | .bool b => some (.bool b)
  | .integer n => some (.integer n)
  | .real x => some (.real x)
  | .string s => some (.string s)
  | .array items closed => if closed then (toItems? items).map .array else none
  | .object entries closed => if closed then (toEntries? entries).map .object else none
  | .unusable => none
  | .broken => none

/-- `toJson?` for all items. -/
def toItems? : List Draft → Option (List Json)
  | [] => some []
  | d :: rest => do pure ((← toJson? d) :: (← toItems? rest))

/-- `toJson?` for the values of all entries. -/
def toEntries? : List (DraftKey × Draft) → Option (List (String × Json))
  | [] => some []
  | (.text k, d) :: rest => do pure ((k, ← toJson? d) :: (← toEntries? rest))
  | _ => none

end

/-- What stands in a text: a draft, and the tokens behind it unless it breaks off. -/
abbrev Reading := Draft × Option (List Token)

/-- A container as it counts where `levels` more may be nested. -/
def sealed (levels : Nat) (reading : Reading) : Reading :=
  match levels, reading with
  | 0, (.array _ true, rest) => (.unusable, rest)
  | 0, (.object _ true, rest) => (.unusable, rest)
  | _, reading => reading

/-- A string in the place of a key, and what follows it. -/
def key? : List Token → Option (DraftKey × List Token)
  | .string k :: rest => some (.text k, rest)
  | .unpaired :: rest => some (.unusable, rest)
  | _ => none

mutual

/-- The value at the head of a list of tokens, where `levels` more containers may be nested. A
container takes two steps to open, so two steps for each token are enough. -/
def value : Nat → Nat → List Token → Reading
  | 0, _, _ => (.broken, none)
  | steps + 1, levels, tokens =>
    match tokens with
    | .null :: rest => (.null, some rest)
    | .bool b :: rest => (.bool b, some rest)
    | .integer n :: rest => (.integer n, some rest)
    | .real x :: rest => (.real x, some rest)
    | .string s :: rest => (.string s, some rest)
    | .unpaired :: rest => (.unusable, some rest)
    | .overflow :: rest => (.unusable, some rest)
    | .openArray :: .closeArray :: rest => sealed levels (.array [] true, some rest)
    | .openArray :: rest => sealed levels (items steps (levels - 1) rest [])
    | .openObject :: .closeObject :: rest => sealed levels (.object [] true, some rest)
    | .openObject :: rest => sealed levels (entries steps (levels - 1) rest [])
    | _ => (.broken, none)

/-- The items of an array from the next one on, behind those already read. -/
def items : Nat → Nat → List Token → List Draft → Reading
  | 0, _, _, done => (.array done.reverse false, none)
  | steps + 1, levels, tokens, done =>
    match value steps levels tokens with
    | (.broken, _) => (.array done.reverse false, none)
    | (d, some (.comma :: rest)) => items steps levels rest (d :: done)
    | (d, some (.closeArray :: rest)) => (.array (d :: done).reverse true, some rest)
    | (d, _) => (.array (d :: done).reverse false, none)

/-- The entries of an object from the next one on, behind those already read. A key without a
value has a broken one. -/
def entries : Nat → Nat → List Token → List (DraftKey × Draft) → Reading
  | 0, _, _, done => (.object done.reverse false, none)
  | steps + 1, levels, tokens, done =>
    match key? tokens with
    | some (k, .colon :: rest) =>
      match value steps levels rest with
      | (d, some (.comma :: rest)) => entries steps levels rest ((k, d) :: done)
      | (d, some (.closeObject :: rest)) => (.object ((k, d) :: done).reverse true, some rest)
      | (d, _) => (.object ((k, d) :: done).reverse false, none)
    | some (k, _) => (.object ((k, .broken) :: done).reverse false, none)
    | none => (.object done.reverse false, none)

end

/-- The draft of tokens, where `levels` containers may be nested, and whether it is all of them. -/
def ofTokens (levels : Nat) (tokens : List Token) : Draft × Bool :=
  match value (2 * tokens.length + 1) levels tokens with
  | (d, some []) => (d, true)
  | (d, _) => (d, false)

/-- How many containers may be nested in each other. Deeper ones can only be passed over. -/
def maxNesting : Nat := 127

/-- **The draft a text holds**, and whether it is all of the text. Its decimals are rounded step by
step. -/
def ofText (text : String) : Draft × Bool :=
  ofTokens maxNesting (Json.tokens Number.DecimalNumeral.stepwise? text)

end Draft

/-- **The value of a text** that is JSON, nested to any depth. Its decimals are rounded once. -/
def ofText? (text : String) : Option Json :=
  let tokens := Json.tokens Number.DecimalNumeral.nearest? text
  match Draft.ofTokens tokens.length tokens with
  | (d, true) => d.toJson?
  | (_, false) => none

end SchemaShapes.Json
