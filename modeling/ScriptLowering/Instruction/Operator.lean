/-!
# Operators

The unary and binary operators of instructions, which have the same symbols in lowered code.
-/

namespace ScriptLowering

/-- A unary operator. -/
inductive UnaryOp where
  | not
  | bitNot
  deriving DecidableEq

namespace UnaryOp

/-- All unary operators. -/
def all : List UnaryOp := [.not, .bitNot]

/-- The symbol of an operator. -/
def symbol : UnaryOp → String
  | .not => "!"
  | .bitNot => "~"

/-- The operator with a symbol. -/
def ofSymbol? (text : String) : Option UnaryOp :=
  all.find? fun op => op.symbol == text

end UnaryOp

/-- A binary operator. -/
inductive BinaryOp where
  | add
  | sub
  | mul
  | div
  | mod
  | equal
  | identical
  | notEqual
  | notIdentical
  | less
  | lessEqual
  | greater
  | greaterEqual
  | bitAnd
  | bitOr
  | bitXor
  | shiftLeft
  | shiftRight
  deriving DecidableEq

namespace BinaryOp

/-- All binary operators. -/
def all : List BinaryOp :=
  [.add, .sub, .mul, .div, .mod, .equal, .identical, .notEqual, .notIdentical, .less,
    .lessEqual, .greater, .greaterEqual, .bitAnd, .bitOr, .bitXor, .shiftLeft, .shiftRight]

/-- The symbol of an operator. -/
def symbol : BinaryOp → String
  | .add => "+"
  | .sub => "-"
  | .mul => "*"
  | .div => "/"
  | .mod => "%"
  | .equal => "=="
  | .identical => "==="
  | .notEqual => "!="
  | .notIdentical => "!=="
  | .less => "<"
  | .lessEqual => "<="
  | .greater => ">"
  | .greaterEqual => ">="
  | .bitAnd => "&"
  | .bitOr => "|"
  | .bitXor => "^"
  | .shiftLeft => "<<"
  | .shiftRight => ">>"

/-- The operator with a symbol. -/
def ofSymbol? (text : String) : Option BinaryOp :=
  all.find? fun op => op.symbol == text

end BinaryOp

end ScriptLowering
