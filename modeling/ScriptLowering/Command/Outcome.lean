import ScriptLowering.Command.Arguments

/-!
# Outcomes

What the program writes and the code with which it ends, as a function of its arguments and of
the host it runs on.
-/

namespace ScriptLowering

/-- What the program writes and how it ends. -/
structure Outcome where
  /-- Zero for success, one for a failed command, two for wrong arguments, and 101 for a program
  that breaks off. -/
  code : UInt8 := 0
  /-- What is written as output. -/
  output : String := ""
  /-- What is written about errors. -/
  errors : String := ""

namespace Outcome

/-- The name and the version of the program. -/
def version : String := "ember 0.1.0"

/-- The text with an indentation in front of each line but the first. -/
def indentFollowing (indentation text : String) : String :=
  String.intercalate ("\n" ++ indentation) (text.splitOn "\n")

/-- The text of the causes of a failure. A single cause is indented by four spaces, and of
several causes each is numbered. -/
def renderCauses : List String → String
  | [] => ""
  | [cause] => "\n\nCaused by:\n    " ++ indentFollowing "    " cause
  | causes =>
      let numbered := causes.zipIdx.map fun (cause, number) =>
        let digits := toString number
        "\n" ++ "".pushn ' ' (5 - digits.length) ++ digits ++ ": "
          ++ indentFollowing "       " cause
      "\n\nCaused by:" ++ String.join numbered

/-- The text of a failure and its causes. -/
def renderChain : List String → String
  | [] => ""
  | message :: causes => "Error: " ++ message ++ renderCauses causes ++ "\n"

/-- The outcome of what a command returns. On an overflow it does not return. -/
def ofResult (host : Host) : Except CommandFailure String → Outcome
  | .ok text => { output := text ++ "\n" }
  | .error failure =>
      if failure.cause? = some .overflow then
        { code := 101, errors := host.crashReport Failure.overflow.message }
      else { code := 1, errors := renderChain failure.chain }

/-- The outcome of a command on a file, with the file of a naming. -/
def ofCommand (host : Host) (command : Command) (file : String) (config : Option String) :
    Outcome :=
  ofResult host (command.execute host file config)

/-- The outcome of a run with the given arguments. -/
def ofArguments (host : Host) (arguments : List String) : Outcome :=
  match Invocation.parse arguments with
  | .error _ => { code := 2, errors := host.usage arguments }
  | .ok .help => { output := host.usage arguments }
  | .ok .version => { output := version ++ "\n" }
  | .ok (.run command file config) => ofCommand host command file config

end Outcome

end ScriptLowering
