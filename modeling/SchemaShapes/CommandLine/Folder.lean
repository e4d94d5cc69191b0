import SchemaShapes.CommandLine.Device

/-!
# Folders

A folder with files and no folders in it, and what reading and writing a path from it comes to.
Around it lie the folders that lead to it and those that every system has.

* `Folder.place`: what a path leads to.
* `Folder.read`, `Folder.write`: a file by its path, or why it cannot be had.
-/

namespace SchemaShapes.CommandLine

/-- **Why a file cannot be read or written.** -/
inductive FileFault where
  | notFound
  | noDevice
  | isFolder
  | notFolder
  | noSpace
  | nameTooLong
  | notText
  | other (description : String)

/-- What a message says of a file. -/
def FileFault.message : FileFault → String
  | .notFound => "No such file or directory (os error 2)"
  | .noDevice => "No such device or address (os error 6)"
  | .isFolder => "Is a directory (os error 21)"
  | .notFolder => "Not a directory (os error 20)"
  | .noSpace => "No space left on device (os error 28)"
  | .nameTooLong => "File name too long (os error 36)"
  | .notText => "stream did not contain valid UTF-8"
  | .other description => description

/-- **A folder** at a place, and the files that have been put into it or elsewhere. -/
structure Folder where
  location : Location
  files : List (Location × ByteArray)

namespace Folder

/-- **A passing folder** with files, made among the temporary ones. Its own name is not known: it
is the empty one, which no path can spell. -/
def passing (files : List (String × ByteArray)) : Folder :=
  let location := ["", "tmp"]
  ⟨location, files.map fun f => (f.1 :: location, f.2)⟩

/-- The content of a file. -/
def content? (folder : Folder) (location : Location) : Option ByteArray :=
  (folder.files.find? fun f => f.1 == location).map (·.2)

/-- Whether there is a folder at a place. -/
def isFolderAt (folder : Folder) (location : Location) : Bool :=
  isTopFolder location || location.isSuffixOf folder.location

/-- Whether there is a file or a device at a place. -/
def isFileAt (folder : Folder) (location : Location) : Bool :=
  (device? location).isSome || (folder.content? location).isSome

/-- **What a path leads to**: a folder, a place for a file, or nowhere. `slashed` is a place with a
slash behind it, which asks the file there to be a folder. -/
inductive Place where
  | folder
  | file (location : Location) (slashed : Bool)
  | nowhere (fault : FileFault)

/-- The most bytes in the name of a file. -/
def maxNameSize : Nat := 255

/-- The most bytes in a path. -/
def maxPathSize : Nat := 4095

/-- **Following the parts of a path** from a folder. Above the topmost folder is itself, and what
stands behind a name asks the file of that name to be a folder. -/
def follow (folder : Folder) (slashed : Bool) : Location → List String → Place
  | _, [] => .folder
  | here, "." :: parts => follow folder slashed here parts
  | here, ".." :: parts => follow folder slashed (here.drop 1) parts
  | here, name :: parts =>
    let location := name :: here
    if maxNameSize < name.utf8ByteSize then .nowhere .nameTooLong
    else if folder.isFolderAt location then follow folder slashed location parts
    else if parts.isEmpty then .file location slashed
    else .nowhere (if folder.isFileAt location then .notFolder else .notFound)

/-- **The place of a path**, from the topmost folder if it begins with a slash. -/
def place (folder : Folder) (path : String) : Place :=
  if path.isEmpty then .nowhere .notFound
  else if maxPathSize < path.utf8ByteSize then .nowhere .nameTooLong
  else
    follow folder (path.endsWith "/") (if path.startsWith "/" then [] else folder.location)
      ((path.splitOn "/").filter (· != ""))

/-- Reads a device. Nothing comes from it. -/
def readDevice (device : Device) : Except FileFault ByteArray :=
  if device = .terminal then .error .noDevice else .ok .empty

/-- Reads a file. -/
def read (folder : Folder) (path : String) : Except FileFault ByteArray :=
  match folder.place path with
  | .folder => .error .isFolder
  | .nowhere fault => .error fault
  | .file location slashed =>
    if slashed && folder.isFileAt location then .error .notFolder
    else
      match device? location, folder.content? location with
      | some device, _ => readDevice device
      | none, some bytes => .ok bytes
      | none, none => .error .notFound

/-- **What writing comes to**: the folder as it is then, or a text that is shown. -/
inductive Written where
  | stored (folder : Folder)
  | shown

/-- Writes to a device. -/
def writeDevice (folder : Folder) (device : Device) (bytes : ByteArray) :
    Except FileFault Written :=
  match device with
  | .drain => .ok (.stored folder)
  | .full => if bytes.isEmpty then .ok (.stored folder) else .error .noSpace
  | .output => .ok .shown
  | .terminal => .error .noDevice

/-- **Writes a file**, in place of one of the same name. A slash behind the name asks for a folder,
and none can be written. -/
def write (folder : Folder) (path : String) (bytes : ByteArray) : Except FileFault Written :=
  match folder.place path with
  | .folder => .error .isFolder
  | .nowhere fault => .error fault
  | .file _ true => .error .isFolder
  | .file location false =>
    match device? location with
    | some device => folder.writeDevice device bytes
    | none =>
      let others := folder.files.filter fun f => f.1 != location
      .ok (.stored ⟨folder.location, (location, bytes) :: others⟩)

end Folder

end SchemaShapes.CommandLine
