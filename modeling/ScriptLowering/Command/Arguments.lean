import ScriptLowering.Command.Basic

/-!
# Command line arguments

The arguments name a command and its file. The option for a naming may stand in front of the
command and behind it, once on each side, and the one behind wins. Arguments are read from the
left, and the first one that is wrong or asks for information decides.
-/

namespace ScriptLowering

namespace Command

/-- The command with a name. -/
def ofName? : String → Option Command
  | "lower" => some .lower
  | "class" => some .classOf
  | "dump" => some .dump
  | _ => none

end Command

/-- What the arguments ask for. -/
inductive Invocation where
  /-- The version of the program. -/
  | version
  /-- Help on the program. -/
  | help
  /-- A command on a file, with the file of a naming. -/
  | run (command : Command) (file : String) (config : Option String)
  deriving DecidableEq

/-- Why arguments are wrong. -/
inductive UsageFault where
  /-- There is no command. -/
  | noCommand
  /-- There is no command with a name. -/
  | unknownCommand (name : String)
  /-- An argument has no place. -/
  | unexpected (argument : String)
  /-- An option has no value. -/
  | noValue
  /-- An option is given twice. -/
  | repeated
  /-- A command has no file. -/
  | noFile
  deriving DecidableEq

/-- What one argument is by itself. -/
inductive Argument where
  /-- The option for a naming, with a value in the same argument. -/
  | config (value : Option String)
  /-- The option for the version. -/
  | version
  /-- The option for help. -/
  | help
  /-- The end of the options. -/
  | terminator
  /-- An unknown option. -/
  | unknown
  /-- No option. -/
  | operand

namespace Argument

/-- The name of a long option and its value behind an equals sign. -/
def splitLong (letters : List Char) : String × Option String :=
  let name := String.ofList (letters.takeWhile (· != '='))
  match letters.dropWhile (· != '=') with
  | [] => (name, none)
  | _ :: value => (name, some (String.ofList value))

/-- The argument that begins with two dashes. -/
def ofLong (letters : List Char) : Argument :=
  match splitLong letters with
  | ("config", value) => .config value
  | ("version", none) => .version
  | ("help", none) => .help
  | _ => .unknown

/-- The argument that begins with one dash. The value of an option may follow its letter. -/
def ofShort : List Char → Argument
  | ['c'] => .config none
  | 'c' :: '=' :: value => .config (some (String.ofList value))
  | 'c' :: value => .config (some (String.ofList value))
  | 'V' :: _ => .version
  | 'h' :: _ => .help
  | _ => .unknown

/-- What an argument is by itself. A single dash is no option. -/
def ofText (text : String) : Argument :=
  match text.toList with
  | ['-'] => .operand
  | ['-', '-'] => .terminator
  | '-' :: '-' :: letters => ofLong letters
  | '-' :: letters => ofShort letters
  | _ => .operand

/-- The argument can be the value of the option in front of it. -/
def isOperand (text : String) : Bool :=
  match ofText text with
  | .operand => true
  | _ => false

end Argument

namespace Invocation

/-- Take the value of the option for a naming. It is not empty, and the only one on its side of
the command. -/
def setConfig (present : Option String) (value : String) : Except UsageFault (Option String) :=
  if value.isEmpty then .error .noValue
  else if present.isSome then .error .repeated
  else .ok (some value)

/-- Take the file of a command. It is not empty, and the only one. -/
def setFile (present : Option String) (value : String) : Except UsageFault (Option String) :=
  if value.isEmpty then .error .noFile
  else if present.isSome then .error (.unexpected value)
  else .ok (some value)

/-- Finish with a file that has or has not been given. -/
def finish (command : Command) (config file : Option String) : Except UsageFault Invocation :=
  match file with
  | some file => .ok (.run command file config)
  | none => .error .noFile

/-- Read arguments that are all operands. -/
def parseOperands (command : Command) (config file : Option String) :
    List String → Except UsageFault Invocation
  | [] => finish command config file
  | value :: rest => do parseOperands command config (← setFile file value) rest

/-- Read the arguments behind a command. -/
def parseCommand (command : Command) (outer inner file : Option String) :
    List String → Except UsageFault Invocation
  | [] => finish command (inner <|> outer) file
  | text :: rest =>
      match Argument.ofText text with
      | .operand => do parseCommand command outer inner (← setFile file text) rest
      | .terminator => parseOperands command (inner <|> outer) file rest
      | .config (some value) => do
          parseCommand command outer (← setConfig inner value) file rest
      | .config none =>
          match rest with
          | value :: rest =>
              if Argument.isOperand value then do
                parseCommand command outer (← setConfig inner value) file rest
              else .error .noValue
          | [] => .error .noValue
      | .help => .ok .help
      | .version | .unknown => .error (.unexpected text)

/-- Read the arguments behind the command for help, which may name a command. -/
def parseHelp : List String → Except UsageFault Invocation
  | [] | ["help"] => .ok .help
  | [name] => if (Command.ofName? name).isSome then .ok .help else .error (.unknownCommand name)
  | _ :: extra :: _ => .error (.unknownCommand extra)

/-- Read the arguments from the start, with the naming given so far. -/
def parseFrom (config : Option String) : List String → Except UsageFault Invocation
  | [] => .error .noCommand
  | text :: rest =>
      match Argument.ofText text with
      | .operand =>
          match Command.ofName? text with
          | some command => parseCommand command config none none rest
          | none => if text = "help" then parseHelp rest else .error (.unknownCommand text)
      | .terminator =>
          match rest with
          | [] => .error .noCommand
          | operand :: _ => .error (.unexpected operand)
      | .config (some value) => do parseFrom (← setConfig config value) rest
      | .config none =>
          match rest with
          | value :: rest =>
              if Argument.isOperand value then do parseFrom (← setConfig config value) rest
              else .error .noValue
          | [] => .error .noValue
      | .version => .ok .version
      | .help => .ok .help
      | .unknown => .error (.unexpected text)

/-- What the arguments ask for. -/
def parse (arguments : List String) : Except UsageFault Invocation :=
  parseFrom none arguments

/-- The paths of the files that an invocation reads. -/
def paths : Invocation → List String
  | .run _ file config => file :: config.toList
  | .version | .help => []

end Invocation

end ScriptLowering
