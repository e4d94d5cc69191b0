import SchemaShapes.Text.Visible

/-!
# Quoted texts in messages

A text as a message shows it: in double quotes, with the characters that do not show written
by name or by code point.

* `quote`: the quoted form.
-/

namespace SchemaShapes.Text

/-- The digits of a number in base sixteen, in lower case. -/
def hex (n : Nat) : String :=
  String.ofList (Nat.toDigits 16 n)

/-- One character inside quotes. An apostrophe stands for itself. -/
def quoteChar (c : Char) : String :=
  if c = '"' then "\\\""
  else if c = '\\' then "\\\\"
  else if c = '\n' then "\\n"
  else if c = '\r' then "\\r"
  else if c = '\t' then "\\t"
  else if c.toNat = 0 then "\\0"
  else if isVisible c then String.singleton c
  else "\\u\x7b" ++ hex c.toNat ++ "\x7d"

/-- **The quoted form** of a text. -/
def quote (s : String) : String :=
  "\"" ++ String.join (s.toList.map quoteChar) ++ "\""

end SchemaShapes.Text
