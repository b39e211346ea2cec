import ScriptLowering.Command.Host

/-!
# Directories

A directory of files as the program sees it from inside: which file a path leads to, or why it
leads to none. A path is followed name by name, so the first name that leads nowhere decides.
-/

namespace ScriptLowering

/-- A directory that a path can pass. -/
inductive Folder where
  /-- The directory in which the program runs. -/
  | home
  /-- A directory above that one. Nothing but the way further up is known of it. -/
  | above
  /-- The root of the system, which is its own parent. -/
  | root
  /-- The directory of devices, of which only the empty device is known. -/
  | devices
  /-- The directory for temporary files. -/
  | temporary
  deriving DecidableEq

namespace Folder

/-- The directory that holds this one. -/
def parent : Folder → Folder
  | .home | .above => .above
  | .root | .devices | .temporary => .root

end Folder

/-- Where a path has led so far. -/
inductive Place where
  /-- To a directory. -/
  | folder (folder : Folder)
  /-- To a file with these bytes. -/
  | file (bytes : List UInt8)
  deriving DecidableEq

/-- A directory that holds files and no further directories. -/
structure Directory where
  /-- The bytes of each file, by name. -/
  files : List (String × List UInt8)

namespace Directory

/-- The most bytes that a name in a path may have. -/
def longestName : Nat := 255

/-- The most bytes that a path may have. -/
def longestPath : Nat := 4095

/-- What a directory holds under a name, when the program runs in the given one. Outside of that
one only what every system has is known. -/
def entry? (directory : Directory) : Folder → String → Option Place
  | .home, name => (directory.files.lookup name).map .file
  | .root, "dev" => some (.folder .devices)
  | .root, "tmp" => some (.folder .temporary)
  | .devices, "null" => some (.file [])
  | _, _ => none

/-- Follow one part of a path. Nothing, not even an empty part, can follow a file. -/
def step (directory : Directory) : Place → String → Except ReadFault Place
  | .file _, _ => .error .notDirectory
  | .folder folder, part =>
      if part = "" ∨ part = "." then .ok (.folder folder)
      else if part = ".." then .ok (.folder folder.parent)
      else if longestName < part.utf8ByteSize then .error .nameTooLong
      else
        match directory.entry? folder part with
        | none => .error .missing
        | some place => .ok place

/-- The directory at which a path starts. -/
def start (path : String) : Folder :=
  match path.toList with
  | '/' :: _ => .root
  | _ => .home

/-- The parts of a path between its slashes. -/
def parts : List Char → List (List Char)
  | [] => [[]]
  | letter :: rest =>
      match letter, parts rest with
      | '/', others => [] :: others
      | _, first :: others => (letter :: first) :: others
      | _, [] => [[letter]]

/-- The place to which a path leads. -/
def locate (directory : Directory) (path : String) : Except ReadFault Place :=
  if path = "" then .error .missing
  else if longestPath < path.utf8ByteSize then .error .nameTooLong
  else ((parts path.toList).map String.ofList).foldlM directory.step (.folder (start path))

/-- The text of the file at a path. -/
def read (directory : Directory) (path : String) : Except ReadFault String :=
  match directory.locate path with
  | .ok (.file bytes) => Host.textOfBytes bytes
  | .ok (.folder _) => .error .isDirectory
  | .error fault => .error fault

end Directory

end ScriptLowering
