import SchemaShapes.CommandLine.Command

/-!
# The program

The command on the files of the system.
-/

namespace SchemaShapes.CommandLine

/-- A fault of the system as a fault of a file. -/
def FileFault.ofSystem (e : IO.Error) : FileFault :=
  match e with
  | .noFileOrDirectory .. => .notFound
  | .inappropriateType .. => .notFolder
  | e => .other (toString e)

/-- Whether a path leads to a folder. -/
def leadsToFolder (path : String) : IO Bool := do
  try
    (← IO.FS.realPath path).isDir
  catch _ =>
    return false

/-- Reads a file. -/
def readSource (path : String) : IO (Except FileFault ByteArray) := do
  if ← leadsToFolder path then
    return .error .isFolder
  try
    return .ok (← IO.FS.readBinFile path)
  catch e =>
    return .error (.ofSystem e)

/-- Writes a file, and says why if it cannot be written. -/
def writeTarget (path text : String) : IO (Option FileFault) := do
  if ← leadsToFolder path then
    return some .isFolder
  try
    IO.FS.writeFile path text
    return none
  catch e =>
    return some (.ofSystem e)

/-- Shows a report, and gives the exit code of a failure. -/
def showReport (report : Report) : IO UInt32 := do
  IO.eprintln ("Error: " ++ report.message)
  return 1

/-- How the command is called. -/
def usageLine : String :=
  "usage: schema-shapes [--format turtle|ntriples|jsonld] [--out FILE] [--suffix TEXT] " ++
    "[--open] [--no-metadata] SCHEMA"

/-- **The program** on its arguments: the path of a schema, and options. -/
def program (arguments : List String) : IO UInt32 := do
  match Invocation.parse? arguments with
  | none =>
    IO.eprintln usageLine
    return 2
  | some request =>
    match request.produce (← readSource request.schemaPath) with
    | .error report => showReport report
    | .ok text =>
      match request.out with
      | none =>
        IO.print text
        return 0
      | some path =>
        match ← writeTarget path text with
        | some fault => showReport (Invocation.writeReport path fault)
        | none => return 0

end SchemaShapes.CommandLine

/-- The entry point. -/
def main (arguments : List String) : IO UInt32 :=
  SchemaShapes.CommandLine.program arguments
