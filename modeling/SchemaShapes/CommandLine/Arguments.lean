import SchemaShapes.Options
import SchemaShapes.Output.Format

/-!
# Arguments

What a command line asks for. Options may stand before and behind the path of the schema; each
may be given once.

* `Invocation.parse?`: the request that arguments make, if they make one.
-/

namespace SchemaShapes.CommandLine

open Output (Format)

/-- **A request.** -/
structure Invocation where
  schemaPath : String
  format : Format
  /-- The file to write; without one the text is printed. -/
  out : Option String
  options : Options

/-- What the arguments read so far say. -/
structure Arguments where
  schemaPath : Option String
  format : Option Format
  out : Option String
  suffix : Option String
  isOpen : Bool
  noMetadata : Bool

namespace Arguments

/-- Nothing said yet. -/
def none : Arguments := ⟨.none, .none, .none, .none, false, false⟩

/-- A path for the schema, which is not empty. -/
def addPath (a : Arguments) (path : String) : Option Arguments :=
  if a.schemaPath.isSome || path.isEmpty then .none else some { a with schemaPath := some path }

/-- An option that has no value. -/
def addFlag (a : Arguments) (name : String) : Option Arguments :=
  match name with
  | "open" => if a.isOpen then .none else some { a with isOpen := true }
  | "no-metadata" => if a.noMetadata then .none else some { a with noMetadata := true }
  | _ => .none

/-- An option with its value. -/
def addValue (a : Arguments) (name value : String) : Option Arguments :=
  match name with
  | "format" =>
    match a.format, Format.ofName? value with
    | .none, some f => some { a with format := some f }
    | _, _ => .none
  | "out" =>
    if a.out.isSome || value.isEmpty then .none else some { a with out := some value }
  | "suffix" => if a.suffix.isSome then .none else some { a with suffix := some value }
  | _ => .none

/-- The options that have a value. -/
def takesValue (name : String) : Bool :=
  name == "format" || name == "out" || name == "suffix"

/-- The request that the arguments make. -/
def invocation? (a : Arguments) : Option Invocation :=
  a.schemaPath.map fun path =>
    ⟨path, a.format.getD .turtle, a.out, ⟨!a.isOpen, a.suffix, !a.noMetadata⟩⟩

end Arguments

/-- **One argument.** A lone dash is not an option. -/
inductive Argument where
  | path (value : String)
  | option (name : String) (value : Option String)
  | short
  | endOfOptions

/-- What kind of argument a text is. -/
def Argument.of (text : String) : Argument :=
  match text.toList with
  | ['-', '-'] => .endOfOptions
  | '-' :: '-' :: cs =>
    let name := String.ofList (cs.takeWhile (· != '='))
    match cs.dropWhile (· != '=') with
    | [] => .option name none
    | _ :: value => .option name (some (String.ofList value))
  | '-' :: _ :: _ => .short
  | _ => .path text

/-- Whether a text can stand as the value of an option before it. -/
def Argument.isValue (text : String) : Bool :=
  match Argument.of text with
  | .path _ => true
  | _ => false

namespace Invocation

/-- Reads arguments one after the other. -/
def readArguments : List String → Arguments → Option Arguments
  | [], a => some a
  | text :: rest, a =>
    match Argument.of text with
    | .endOfOptions => rest.foldlM Arguments.addPath a
    | .short => none
    | .path value => (a.addPath value).bind (readArguments rest)
    | .option name (some value) => (a.addValue name value).bind (readArguments rest)
    | .option name none =>
      if Arguments.takesValue name then
        match rest with
        | value :: rest =>
          if Argument.isValue value then (a.addValue name value).bind (readArguments rest)
          else none
        | [] => none
      else (a.addFlag name).bind (readArguments rest)

/-- **The request that arguments make**, if they are well formed. -/
def parse? (arguments : List String) : Option Invocation :=
  (readArguments arguments .none).bind Arguments.invocation?

end Invocation

end SchemaShapes.CommandLine
