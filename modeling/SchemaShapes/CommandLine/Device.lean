/-!
# Devices

The places that every system has outside the folder of a command: the folders at the top, and the
devices among them, which look like files and keep nothing.

* `Location`: a place by its names.
* `isTopFolder`: the folders at the top.
* `device?`: the device at a place.
-/

namespace SchemaShapes.CommandLine

/-- **A place** by its names on the way up, its own name first. The topmost folder has none. -/
abbrev Location := List String

/-- The names of the folders at the top. -/
def topFolders : List String :=
  ["bin", "boot", "dev", "etc", "home", "lib", "media", "mnt", "opt", "proc", "root", "run", "sbin",
    "srv", "sys", "tmp", "usr", "var"]

/-- The topmost folder, or one of those in it. -/
def isTopFolder : Location → Bool
  | [] => true
  | [name] => topFolders.contains name
  | _ => false

/-- **A device**, by what becomes of a text that is written to it. A `drain` takes it and drops it,
a `full` one has no room, an `output` shows it, and no `terminal` is there to take it. -/
inductive Device where
  | drain
  | full
  | output
  | terminal
deriving DecidableEq

/-- The devices by name. The output for faults is a drain: nobody reads it. -/
def devices : List (String × Device) :=
  [("null", .drain), ("zero", .drain), ("random", .drain), ("urandom", .drain), ("stdin", .drain),
    ("stderr", .drain), ("full", .full), ("stdout", .output), ("tty", .terminal)]

/-- The device at a place. -/
def device? : Location → Option Device
  | [name, "dev"] => (devices.find? fun d => d.1 == name).map (·.2)
  | _ => none

end SchemaShapes.CommandLine
