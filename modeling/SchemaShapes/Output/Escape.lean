/-!
# Texts inside quotes

The escapes of quoted strings in N-Triples and Turtle.

* `escape`: a text with a backslash before each character that needs one.
-/

namespace SchemaShapes.Output

/-- One character between quotes. -/
def escapeChar (c : Char) : List Char :=
  if c = '\\' then ['\\', '\\']
  else if c = '"' then ['\\', '"']
  else if c = '\n' then ['\\', 'n']
  else if c = '\r' then ['\\', 'r']
  else if c = '\t' then ['\\', 't']
  else [c]

/-- **A text between quotes.** Backslash, quote, line feed, carriage return and tab are escaped,
every other character stands for itself. -/
def escape (s : String) : String :=
  String.ofList (s.toList.flatMap escapeChar)

/-- A text with its quotes. -/
def quoted (s : String) : String := "\"" ++ escape s ++ "\""

end SchemaShapes.Output
