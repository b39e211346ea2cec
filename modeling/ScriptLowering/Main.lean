import ScriptLowering.Command.Outcome

/-!
# The command line program

Reads the files that the arguments name, writes the outcome and ends with its code.
-/

namespace ScriptLowering

/-- The fault behind an error of the system, whose codes come with either sign. -/
def ReadFault.ofError : IO.Error → ReadFault
  | .noFileOrDirectory _ _ _ => .missing
  | .permissionDenied _ _ _ => .denied
  | .inappropriateType _ code _ =>
      if code = 21 ∨ code = 4294967275 then .isDirectory else .notDirectory
  | .invalidArgument file code details =>
      if code = 36 ∨ code = 4294967260 then .nameTooLong
      else .other (toString (IO.Error.invalidArgument file code details))
  | error => .other (toString error)

/-- The text of the file at a path. -/
def readSource (path : String) : IO (Except ReadFault String) := do
  try
    let bytes ← IO.FS.readBinFile path
    return Host.textOfBytes bytes.toList
  catch error =>
    return .error (ReadFault.ofError error)

end ScriptLowering

open ScriptLowering in
/-- Run the program with the given arguments. -/
def main (arguments : List String) : IO UInt32 := do
  let paths :=
    match Invocation.parse arguments with
    | .ok invocation => invocation.paths
    | .error _ => []
  let sources ← paths.mapM fun path => do return (path, ← readSource path)
  let read (path : String) := (sources.lookup path).getD (.error .missing)
  let outcome := Outcome.ofArguments (.standard read) arguments
  IO.print outcome.output
  IO.eprint outcome.errors
  return outcome.code.toUInt32
