import ScriptLowering.Instruction.Operator
import ScriptLowering.Literal.Basic

/-!
# Statements

The statements of lowered code. An operand is a name or an inlined constant.
-/

namespace ScriptLowering

/-- What a variable is called in lowered code, where inlined constants are of type `κ`. -/
inductive Binding (κ : Type) where
  /-- A name. -/
  | name (text : String)
  /-- An inlined constant. -/
  | literal (value : κ)
  deriving DecidableEq

namespace Binding

/-- The text of a binding, where constants have the given spelling. -/
def render {κ : Type} (spell : κ → String) : Binding κ → String
  | .name text => text
  | .literal value => spell value

end Binding

/-- An operand of a statement. -/
abbrev Operand : Type := Binding Literal

/-- The text of an operand. -/
def Operand.render (operand : Operand) : String :=
  Binding.render Literal.render operand

/-- A statement of lowered code. -/
inductive Statement where
  /-- Copy a value. -/
  | assign (result source : Operand)
  /-- Read a property of an object. -/
  | fetch (result object : Operand) (property : String)
  /-- Apply a unary operator. -/
  | unary (op : UnaryOp) (result operand : Operand)
  /-- Apply a binary operator. -/
  | binary (op : BinaryOp) (result left right : Operand)
  /-- Mark a place that jumps lead to. -/
  | label (target : String)
  /-- Jump to a label. -/
  | jump (target : String)
  /-- Jump to a label if the condition does not hold. -/
  | jumpIfFalse (condition : Operand) (target : String)
  /-- Leave the function, with or without a value. -/
  | ret (value : Option Operand)
  /-- Call a function. -/
  | call (result : Operand) (callee : String) (arguments : List Operand)
  deriving DecidableEq

/-- A text in braces. -/
def Script.braced (inside : String) : String :=
  "\x7b" ++ inside ++ "\x7d"

namespace Statement

/-- The text of a statement, a line or two of code. -/
def render : Statement → String
  | .assign result source => result.render ++ " = " ++ source.render ++ ";\n"
  | .fetch result object property =>
      result.render ++ " = " ++ object.render ++ "->" ++ property ++ ";\n"
  | .unary op result operand =>
      result.render ++ " = " ++ op.symbol ++ operand.render ++ ";\n"
  | .binary op result left right =>
      result.render ++ " = " ++ left.render ++ " " ++ op.symbol ++ " " ++ right.render ++ ";\n"
  | .label target => target ++ ":\n"
  | .jump target => "goto " ++ target ++ ";\n"
  | .jumpIfFalse condition target =>
      "if (!" ++ condition.render ++ ") " ++ Script.braced (" goto " ++ target ++ "; ") ++ "\n"
  | .ret none => "return;\n"
  | .ret (some value) => "return " ++ value.render ++ ";\n"
  | .call result callee arguments =>
      result.render ++ " = " ++ callee ++ "("
        ++ String.intercalate ", " (arguments.map Operand.render) ++ ");\n"

end Statement

end ScriptLowering
