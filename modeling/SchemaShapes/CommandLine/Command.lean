import SchemaShapes.CommandLine.Arguments
import SchemaShapes.CommandLine.Folder
import SchemaShapes.Compile
import SchemaShapes.Schema.Reader

/-!
# The command

A schema is read from a file, compiled, and written as a graph to a file or printed.

* `Invocation.produce`: the text of the graph, from what reading the file has given.
* `execute`: the whole command on a folder.
-/

namespace SchemaShapes.CommandLine

/-- **Why the command fails**, perhaps with a cause. -/
structure Report where
  head : String
  cause : Option String

/-- The report as it is shown. Every line of the cause is indented. -/
def Report.message (r : Report) : String :=
  match r.cause with
  | none => r.head
  | some cause => r.head ++ "\n\nCaused by:\n    " ++ "\n    ".intercalate (cause.splitOn "\n")

namespace Invocation

/-- The text of a file. -/
def decode (source : Except FileFault ByteArray) : Except FileFault String :=
  match source with
  | .error fault => .error fault
  | .ok bytes =>
    match String.fromUTF8? bytes with
    | some text => .ok text
    | none => .error .notText

/-- **The text of the graph**, from what reading the schema's file has given. -/
def produce (request : Invocation) (source : Except FileFault ByteArray) :
    Except Report String :=
  match decode source with
  | .error fault => .error ⟨"Failed to read " ++ request.schemaPath, some fault.message⟩
  | .ok text =>
    match Schema.ofText text with
    | .error _ => .error ⟨"Failed to parse schema model " ++ request.schemaPath, none⟩
    | .ok schema =>
      match schema.compile request.options with
      | .error fault =>
        .error ⟨"Failed to compile schema `" ++ schema.name ++ "`", some fault.message⟩
      | .ok graph => .ok (request.format.render graph)

/-- The report of a file that cannot be written. -/
def writeReport (path : String) (fault : FileFault) : Report :=
  ⟨"Failed to write " ++ path, some fault.message⟩

end Invocation

/-- **How the command ends.** -/
inductive Ending where
  | usage
  | failed (report : Report)
  | printed (text : String)
  | written

/-- The exit code of an end. -/
def Ending.code : Ending → Nat
  | .usage => 2
  | .failed _ => 1
  | .printed _ => 0
  | .written => 0

/-- **The command** on a folder: how it ends, and the folder it leaves. -/
def execute (arguments : List String) (folder : Folder) : Ending × Folder :=
  match Invocation.parse? arguments with
  | none => (.usage, folder)
  | some request =>
    match request.produce (folder.read request.schemaPath) with
    | .error report => (.failed report, folder)
    | .ok text =>
      match request.out with
      | none => (.printed text, folder)
      | some path =>
        match folder.write path text.toUTF8 with
        | .error fault => (.failed (Invocation.writeReport path fault), folder)
        | .ok (.stored folder) => (.written, folder)
        | .ok .shown => (.printed text, folder)

end SchemaShapes.CommandLine
