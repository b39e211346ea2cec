import ScriptLowering.Command.Host
import ScriptLowering.Compiler.Session

/-!
# Commands

What can be done with a file: lower the callables in it, lower the class in it, or list the
instructions in it. A file holds one callable or a list of callables, which are told apart by the
depth at which the header stands.
-/

namespace ScriptLowering

/-- A command on a file. -/
inductive Command where
  /-- Lower callables. -/
  | lower
  /-- Lower a class. -/
  | classOf
  /-- List instructions. -/
  | dump
  deriving DecidableEq

/-- Why a naming cannot be had from a file. -/
inductive NamingFault where
  /-- The file cannot be read. -/
  | unreadable (fault : ReadFault)
  /-- The file holds no naming, for a reason that its reader gives. -/
  | malformed (reason : String)
  deriving DecidableEq

/-- Why a command fails. -/
inductive CommandFailure where
  /-- The file cannot be read. -/
  | unreadable (path : String) (fault : ReadFault)
  /-- The file holds no JSON, for a reason that its reader gives. -/
  | notJson (path reason : String)
  /-- The file holds neither a callable nor a list. -/
  | notAList
  /-- The naming cannot be had. -/
  | naming (path : String) (fault : NamingFault)
  /-- The callable at an index cannot be lowered. -/
  | lowering (index : Nat) (name : Option String) (failure : Failure)
  /-- The callable at an index cannot be read. -/
  | decoding (index : Nat) (failure : Failure)
  /-- The file holds no class. -/
  | descriptor (path : String) (failure : Failure)
  /-- The class cannot be lowered. -/
  | conversion (name : String) (failure : Failure)
  deriving DecidableEq

namespace CommandFailure

/-- The wording of a failure, followed by the wording of each cause behind it. -/
def chain : CommandFailure → List String
  | .unreadable path fault => ["failed to read " ++ path, fault.message]
  | .notJson path reason => [path ++ " is not valid JSON", reason]
  | .notAList => ["input must be a JSON array"]
  | .naming path (.unreadable fault) =>
      ["failed to load config " ++ path,
        "Failed to read config " ++ path ++ ": " ++ fault.message, fault.message]
  | .naming path (.malformed reason) =>
      ["failed to load config " ++ path, "Invalid config: " ++ reason, reason]
  | .lowering index name failure =>
      ["failed to lower stream " ++ toString index ++ " (" ++ name.getD "<unnamed>" ++ ")",
        failure.message]
  | .decoding index failure =>
      ["failed to decode stream " ++ toString index, failure.message]
  | .descriptor path failure => ["invalid class descriptor in " ++ path, failure.message]
  | .conversion name failure => ["failed to convert class " ++ name, failure.message]

/-- The failure of a callable or a class behind the failure of a command. -/
def cause? : CommandFailure → Option Failure
  | .lowering _ _ failure | .decoding _ failure => some failure
  | .descriptor _ failure | .conversion _ failure => some failure
  | .unreadable _ _ | .notJson _ _ | .notAList | .naming _ _ => none

end CommandFailure

namespace Command

/-- The JSON value of a file. -/
def readJson (host : Host) (path : String) : Except CommandFailure Json :=
  match host.read path with
  | .error fault => .error (.unreadable path fault)
  | .ok text =>
      match host.parseJson text with
      | .ok value => .ok value
      | .error reason => .error (.notJson path reason)

/-- The naming of a file, or the default naming without one. -/
def readNaming (host : Host) : Option String → Except CommandFailure Naming
  | none => .ok {}
  | some path =>
      match host.read path with
      | .error fault => .error (.naming path (.unreadable fault))
      | .ok text =>
          match host.parseNaming text with
          | .ok naming => .ok naming
          | .error reason => .error (.naming path (.malformed reason))

/-- The callables that a value holds: the items of a list of callables, which begins with an
array that begins with an array, and otherwise the value itself. -/
def callables : Json → Except CommandFailure (List Json)
  | .array items =>
      match items with
      | .array (.array _ :: _) :: _ => .ok items
      | _ => .ok [.array items]
  | _ => .error .notAList

/-- Lower callables from an index on, with one compiler. -/
def lowerFrom (index : Nat) (compiler : Compiler) :
    List Json → Except CommandFailure (List String)
  | [] => .ok []
  | value :: rest =>
      match compiler.lowerTuples value with
      | (.ok code, compiler) => do return code :: (← lowerFrom (index + 1) compiler rest)
      | (.error failure, _) =>
          .error (.lowering index (Callable.declaredName value).toOption failure)

/-- Lower the callables of a file. -/
def executeLower (host : Host) (file : String) (config : Option String) :
    Except CommandFailure String := do
  let value ← readJson host file
  let naming ← readNaming host config
  let codes ← lowerFrom 0 { naming } (← callables value)
  return String.intercalate "\n\n" codes

/-- Lower the class of a file. -/
def executeClass (host : Host) (file : String) (config : Option String) :
    Except CommandFailure String := do
  let value ← readJson host file
  match ClassDecl.decode value with
  | .error failure => .error (.descriptor file failure)
  | .ok decl => do
      let naming ← readNaming host config
      match (Compiler.lowerClass { naming } decl).1 with
      | .ok code => .ok code
      | .error failure => .error (.conversion decl.name failure)

/-- The listing of a callable. -/
def listing (callable : Callable) : String :=
  callable.kind.tag ++ " " ++ callable.name ++ "("
    ++ String.intercalate ", " (callable.params.map Variable.render) ++ ")\n"
    ++ String.join (callable.body.map fun instr => "  " ++ instr.render ++ "\n")

/-- The listings of callables from an index on. -/
def listFrom (index : Nat) : List Json → Except CommandFailure (List String)
  | [] => .ok []
  | value :: rest =>
      match Callable.decode value with
      | .ok callable => do return listing callable :: (← listFrom (index + 1) rest)
      | .error failure => .error (.decoding index failure)

/-- List the instructions of a file, with a blank line between callables. -/
def executeDump (host : Host) (file : String) : Except CommandFailure String := do
  let value ← readJson host file
  let listings ← listFrom 0 (← callables value)
  return String.ofList (Blank.trimEnd (String.intercalate "\n" listings).toList)

/-- The text that a command makes of a file. Listings have no use for a naming. -/
def execute (host : Host) (command : Command) (file : String) (config : Option String) :
    Except CommandFailure String :=
  match command with
  | .lower => executeLower host file config
  | .classOf => executeClass host file config
  | .dump => executeDump host file

end Command

end ScriptLowering
