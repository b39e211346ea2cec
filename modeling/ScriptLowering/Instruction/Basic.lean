import ScriptLowering.Instruction.Operator

/-!
# Instructions

The instructions of a callable, with the variables that each one reads and writes. Variables are
numbered; the receiver stands apart from all numbered ones.
-/

namespace ScriptLowering

/-- A variable of a callable. -/
inductive Variable where
  /-- The object on which a method is called. -/
  | receiver
  /-- A numbered variable. -/
  | slot (id : Fin 4294967295)
  deriving DecidableEq

namespace Variable

/-- The variable with a 32-bit identifier. The greatest identifier is the receiver's. -/
def ofWord (word : UInt32) : Variable :=
  if inRange : word.toNat < 4294967295 then .slot ⟨word.toNat, inRange⟩ else .receiver

/-- Put one variable in the place of another, and tell whether the other stood there. -/
def replace (old new subject : Variable) : Bool × Variable :=
  if subject = old then (true, new) else (false, subject)

/-- The text of a variable in listings. -/
def render : Variable → String
  | .receiver => "this"
  | .slot id => "v" ++ toString id.val

end Variable

/-- A jump label. -/
structure Label where
  /-- The 32-bit identifier. -/
  id : UInt32
  deriving DecidableEq

namespace Label

/-- The text of a label in listings. -/
def render (label : Label) : String :=
  "L" ++ toString label.id.toNat

end Label

/-- The type of a constant. -/
inductive ConstType where
  | bool
  | long
  | numeric
  | double
  | string
  deriving DecidableEq

namespace ConstType

/-- The tag of a type. -/
def tag : ConstType → String
  | .bool => "bool"
  | .long => "long"
  | .numeric => "numeric"
  | .double => "double"
  | .string => "string"

/-- The type with a tag. The tag `int` is another word for `long`. -/
def ofTag? : String → Option ConstType
  | "bool" => some .bool
  | "long" => some .long
  | "int" => some .long
  | "numeric" => some .numeric
  | "double" => some .double
  | "string" => some .string
  | _ => none

/-- Constants of the type are integers. -/
def isIntegral : ConstType → Bool
  | .bool | .long | .numeric => true
  | .double | .string => false

end ConstType

/-- One instruction of a callable. -/
inductive Instr where
  /-- Bind the constant with a type and a payload. -/
  | const (result : Variable) (type : ConstType) (payload : String)
  /-- Declare a variable. -/
  | declare (result : Variable)
  /-- Copy a variable. -/
  | assign (result source : Variable)
  /-- Read a property of an object. -/
  | fetch (result object : Variable) (property : String)
  /-- Apply a unary operator. -/
  | unary (op : UnaryOp) (result operand : Variable)
  /-- Apply a binary operator. -/
  | binary (op : BinaryOp) (result left right : Variable)
  /-- Mark a place that jumps lead to. -/
  | label (target : Label)
  /-- Jump to a label. -/
  | jump (target : Label)
  /-- Jump to a label if the condition does not hold. -/
  | jumpIfFalse (condition : Variable) (target : Label)
  /-- Leave the callable, with or without a value. -/
  | ret (value : Option Variable)
  /-- Call a function. -/
  | call (result : Variable) (callee : String) (arguments : List Variable)
  /-- Mark the end of the use of a variable. -/
  | free (subject : Variable)
  /-- Call the callable itself. -/
  | recurse
  deriving DecidableEq

namespace Instr

/-- The variable that an instruction writes or introduces. -/
def result? : Instr → Option Variable
  | .const result _ _ | .declare result | .assign result _ | .fetch result _ _
  | .unary _ result _ | .binary _ result _ _ | .call result _ _ => some result
  | .label _ | .jump _ | .jumpIfFalse _ _ | .ret _ | .free _ | .recurse => none

/-- The variables that an instruction reads, in order. -/
def operands : Instr → List Variable
  | .assign _ source => [source]
  | .fetch _ object _ => [object]
  | .unary _ _ operand => [operand]
  | .binary _ _ left right => [left, right]
  | .jumpIfFalse condition _ => [condition]
  | .ret value => value.toList
  | .call _ _ arguments => arguments
  | .const _ _ _ | .declare _ | .label _ | .jump _ | .free _ | .recurse => []

/-- The variables that an instruction mentions: those that it reads, then the one that it writes
or frees. -/
def mentions : Instr → List Variable
  | .free subject => [subject]
  | instr => instr.operands ++ instr.result?.toList

/-- The label that an instruction marks or jumps to. -/
def label? : Instr → Option Label
  | .label target | .jump target | .jumpIfFalse _ target => some target
  | _ => none

/-- The instruction reads the variable. -/
def reads (instr : Instr) (subject : Variable) : Bool :=
  instr.operands.contains subject

/-- The instruction with one variable read in place of another, and whether that changes any place
of it. What it writes, introduces or frees stays. -/
def substitute (old new : Variable) : Instr → Bool × Instr
  | .assign result source =>
      let (changed, source) := Variable.replace old new source
      (changed, .assign result source)
  | .fetch result object property =>
      let (changed, object) := Variable.replace old new object
      (changed, .fetch result object property)
  | .unary op result operand =>
      let (changed, operand) := Variable.replace old new operand
      (changed, .unary op result operand)
  | .binary op result left right =>
      let (leftChanged, left) := Variable.replace old new left
      let (rightChanged, right) := Variable.replace old new right
      (leftChanged || rightChanged, .binary op result left right)
  | .jumpIfFalse condition target =>
      let (changed, condition) := Variable.replace old new condition
      (changed, .jumpIfFalse condition target)
  | .ret (some value) =>
      let (changed, value) := Variable.replace old new value
      (changed, .ret (some value))
  | .call result callee arguments =>
      let places := arguments.map (Variable.replace old new)
      (places.any Prod.fst, .call result callee (places.map Prod.snd))
  | .ret none => (false, .ret none)
  | .const result type payload => (false, .const result type payload)
  | .declare result => (false, .declare result)
  | .label target => (false, .label target)
  | .jump target => (false, .jump target)
  | .free subject => (false, .free subject)
  | .recurse => (false, .recurse)

/-- The instruction with one variable read in place of another. -/
def replaceOperand (old new : Variable) (instr : Instr) : Instr :=
  (instr.substitute old new).2

/-- The text of an instruction in listings. -/
def render : Instr → String
  | .const result type payload => result.render ++ " = const." ++ type.tag ++ " " ++ payload
  | .declare result => "var " ++ result.render
  | .assign result source => result.render ++ " = " ++ source.render
  | .fetch result object property =>
      result.render ++ " = " ++ object.render ++ "->" ++ property
  | .unary op result operand => result.render ++ " = " ++ op.symbol ++ operand.render
  | .binary op result left right =>
      result.render ++ " = " ++ left.render ++ " " ++ op.symbol ++ " " ++ right.render
  | .label target => target.render ++ ":"
  | .jump target => "jump " ++ target.render
  | .jumpIfFalse condition target => "jumpz " ++ condition.render ++ ", " ++ target.render
  | .ret none => "return"
  | .ret (some value) => "return " ++ value.render
  | .call result callee arguments =>
      result.render ++ " = " ++ callee ++ "("
        ++ String.intercalate ", " (arguments.map Variable.render) ++ ")"
  | .free subject => "free " ++ subject.render
  | .recurse => "recurse"

end Instr

end ScriptLowering
