import SchemaShapes.Json.Basic
import SchemaShapes.Number.Layout
import SchemaShapes.Text.Quoted

/-!
# Texts of JSON values

* `Json.compact`: without any blank.
* `Json.pretty`: each item and entry on a line of its own, two spaces deeper than its container.
-/

namespace SchemaShapes.Json

/-- One character inside a JSON string. -/
def escapeChar (c : Char) : String :=
  if c = '"' then "\\\""
  else if c = '\\' then "\\\\"
  else if c = '\n' then "\\n"
  else if c = '\r' then "\\r"
  else if c = '\t' then "\\t"
  else if c.toNat = 8 then "\\b"
  else if c.toNat = 12 then "\\f"
  else if c.toNat < 16 then "\\u000" ++ Text.hex c.toNat
  else if c.toNat < 32 then "\\u00" ++ Text.hex c.toNat
  else String.singleton c

/-- A JSON string. -/
def quoted (s : String) : String :=
  "\"" ++ String.join (s.toList.map escapeChar) ++ "\""

/-- **How containers are laid out**: what stands before an item at a depth, and what stands
between a key and its value. -/
structure Style where
  lead : Nat → String
  colon : String

/-- No blanks. -/
def Style.compact : Style := ⟨fun _ => "", ":"⟩

/-- A line for each item, and two spaces for each depth. -/
def Style.pretty : Style :=
  ⟨fun depth => String.ofList ('\n' :: List.replicate (2 * depth) ' '), ": "⟩

mutual

/-- Writes a value at a depth after a text. -/
def write (style : Style) (depth : Nat) : Json → String → String
  | .null, out => out ++ "null"
  | .bool b, out => out ++ (if b then "true" else "false")
  | .integer n, out => out ++ toString n
  | .real x, out => out ++ Number.Layout.json.render x
  | .string s, out => out ++ quoted s
  | .array [], out => out ++ "[]"
  | .array (j :: rest), out =>
    writeItems style depth rest (write style (depth + 1) j (out ++ "[" ++ style.lead (depth + 1)))
  | .object [], out => out ++ "\x7b\x7d"
  | .object ((k, j) :: rest), out =>
    writeEntries style depth rest
      (write style (depth + 1) j
        (out ++ "\x7b" ++ style.lead (depth + 1) ++ quoted k ++ style.colon))

/-- Writes the items after the first, and the end of their array. -/
def writeItems (style : Style) (depth : Nat) : List Json → String → String
  | [], out => out ++ style.lead depth ++ "]"
  | j :: rest, out =>
    writeItems style depth rest (write style (depth + 1) j (out ++ "," ++ style.lead (depth + 1)))

/-- Writes the entries after the first, and the end of their object. -/
def writeEntries (style : Style) (depth : Nat) : List (String × Json) → String → String
  | [], out => out ++ style.lead depth ++ "\x7d"
  | (k, j) :: rest, out =>
    writeEntries style depth rest
      (write style (depth + 1) j
        (out ++ "," ++ style.lead (depth + 1) ++ quoted k ++ style.colon))

end

/-- **The text without blanks.** -/
def compact (j : Json) : String := write .compact 0 j ""

/-- **The text with a line for each item.** -/
def pretty (j : Json) : String := write .pretty 0 j ""

end SchemaShapes.Json
