import ScriptLowering.Draft.Basic
import ScriptLowering.Literal.Payload

/-!
# Building drafts

The calls with which a draft is built. A call that makes a value declares a new variable for it,
so every variable is introduced once.
-/

namespace ScriptLowering

/-- A call to the builder of a draft. -/
inductive DraftCall where
  /-- A new parameter. -/
  | param
  /-- A constant with its payload. -/
  | const (type : ConstType) (payload : String)
  /-- A string constant. -/
  | string (value : String)
  /-- An integer constant. -/
  | long (value : Int)
  /-- A floating-point constant. -/
  | double (value : Binary64)
  /-- A declared variable. -/
  | declare
  /-- The value of a property. -/
  | fetch (object : Variable) (property : String)
  /-- The value of a unary operation. -/
  | unary (op : UnaryOp) (operand : Variable)
  /-- The value of a binary operation. -/
  | binary (op : BinaryOp) (left right : Variable)
  /-- The value of a call. -/
  | call (callee : String) (arguments : List Variable)
  /-- A new label. -/
  | freshLabel
  /-- A copy into a variable. -/
  | assign (result source : Variable)
  /-- A mark for jumps. -/
  | label (target : Label)
  /-- A jump. -/
  | jump (target : Label)
  /-- A jump under a condition. -/
  | jumpIfFalse (condition : Variable) (target : Label)
  /-- A return. -/
  | ret (value : Option Variable)
  /-- The end of the use of a variable. -/
  | free (subject : Variable)

/-- What a call to the builder gives back. -/
inductive DraftAnswer where
  | value (subject : Variable)
  | label (label : Label)
  | nothing

namespace Draft

/-- Bind a constant to a new variable. -/
def addConst (draft : Draft) (type : ConstType) (payload : String) : DraftAnswer × Draft :=
  let (result, draft) := draft.freshVariable
  (.value result, draft.push (.const result type payload))

/-- Declare a new variable. -/
def addDeclare (draft : Draft) : Variable × Draft :=
  let (result, draft) := draft.freshVariable
  (result, draft.push (.declare result))

/-- Declare a new variable for the result of an instruction. -/
def addValue (draft : Draft) (instr : Variable → Instr) : DraftAnswer × Draft :=
  let (result, draft) := draft.addDeclare
  (.value result, draft.push (instr result))

/-- Answer a call to the builder. -/
def build (draft : Draft) : DraftCall → DraftAnswer × Draft
  | .param =>
      let (result, draft) := draft.freshVariable
      (.value result, draft)
  | .const type payload => draft.addConst type payload
  | .string value => draft.addConst .string (Payload.ofString value)
  | .long value => draft.addConst .long (Payload.ofInt value)
  | .double value => draft.addConst .double (Payload.ofFloat value)
  | .declare =>
      let (result, draft) := draft.addDeclare
      (.value result, draft)
  | .fetch object property => draft.addValue fun result => .fetch result object property
  | .unary op operand => draft.addValue fun result => .unary op result operand
  | .binary op left right => draft.addValue fun result => .binary op result left right
  | .call callee arguments => draft.addValue fun result => .call result callee arguments
  | .freshLabel =>
      let (label, draft) := draft.freshLabel
      (.label label, draft)
  | .assign result source => (.nothing, draft.push (.assign result source))
  | .label target => (.nothing, draft.push (.label target))
  | .jump target => (.nothing, draft.push (.jump target))
  | .jumpIfFalse condition target => (.nothing, draft.push (.jumpIfFalse condition target))
  | .ret value => (.nothing, draft.push (.ret value))
  | .free subject => (.nothing, draft.push (.free subject))

end Draft

end ScriptLowering
