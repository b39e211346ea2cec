import ScriptLowering.Instruction.Basic

/-!
# Callables

A function or method: its name, its parameters and its instructions.
-/

namespace ScriptLowering

/-- What a callable is declared as. -/
inductive CallableKind where
  | function
  | method
  deriving DecidableEq

namespace CallableKind

/-- The tag of a kind. -/
def tag : CallableKind → String
  | .function => "function"
  | .method => "method"

/-- The kind with a tag. -/
def ofTag? : String → Option CallableKind
  | "function" => some .function
  | "method" => some .method
  | _ => none

end CallableKind

/-- What is known of a callable before its body. -/
structure Header where
  /-- Function or method. -/
  kind : CallableKind
  /-- The declared name. -/
  name : String
  /-- The parameters, in order. -/
  params : List Variable
  deriving DecidableEq

/-- A function or method. -/
structure Callable extends Header where
  /-- The instructions, in order. -/
  body : List Instr
  deriving DecidableEq

namespace Callable

/-- The callable as a function. -/
def toFunction (callable : Callable) : Callable :=
  { callable with kind := .function }

end Callable

end ScriptLowering
