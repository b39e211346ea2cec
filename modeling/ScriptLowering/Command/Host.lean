import ScriptLowering.Json.Parser
import ScriptLowering.Naming.Document
import ScriptLowering.Text.Utf8

/-!
# The host of the program

What the program finds around it and does not decide itself: the files it can read, the readers of
the two formats that files are written in, and the wording of what others than the program write.
-/

namespace ScriptLowering

/-- Why a file cannot be read. -/
inductive ReadFault where
  /-- There is no such file. -/
  | missing
  /-- The path is that of a directory. -/
  | isDirectory
  /-- The path goes on behind a file. -/
  | notDirectory
  /-- The path, or a name in it, is longer than the system allows. -/
  | nameTooLong
  /-- The file may not be read. -/
  | denied
  /-- The file holds no text. -/
  | notText
  /-- Another reason, in the words of the system. -/
  | other (reason : String)
  deriving DecidableEq

namespace ReadFault

/-- The wording of a fault. -/
def message : ReadFault → String
  | .missing => "No such file or directory (os error 2)"
  | .denied => "Permission denied (os error 13)"
  | .notDirectory => "Not a directory (os error 20)"
  | .isDirectory => "Is a directory (os error 21)"
  | .nameTooLong => "File name too long (os error 36)"
  | .notText => "stream did not contain valid UTF-8"
  | .other reason => reason

end ReadFault

/-- What is around the program. -/
structure Host where
  /-- The text of the file at a path. -/
  read : String → Except ReadFault String
  /-- The JSON value that a text spells, or the reason why it spells none. -/
  parseJson : String → Except String Json
  /-- The naming that a TOML document configures, or the reason why it configures none. -/
  parseNaming : String → Except String Naming
  /-- What is written in answer to arguments that are wrong or ask for help. -/
  usage : List String → String
  /-- What is written when the program breaks off, with the reason. -/
  crashReport : String → String

namespace Host

/-- The text that the bytes of a file spell. -/
def textOfBytes (bytes : List UInt8) : Except ReadFault String :=
  match Utf8.decode bytes with
  | .ok letters => .ok (String.ofList letters)
  | .error _ => .error .notText

/-- Arrays and objects in a file may be nested this deep. -/
def nestingLimit : Nat := 127

/-- The host with the readers of this library, which give no reasons. -/
def standard (read : String → Except ReadFault String) : Host where
  read
  parseJson text :=
    match Json.parse? nestingLimit text with
    | some value => .ok value
    | none => .error "not a JSON text"
  parseNaming text :=
    match Naming.ofDocument? text with
    | some naming => .ok naming
    | none => .error "not a naming document"
  usage _ := "Usage: ember [OPTIONS] <COMMAND>\n"
  crashReport reason := reason ++ "\n"

end Host

end ScriptLowering
