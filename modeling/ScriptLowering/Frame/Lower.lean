import ScriptLowering.Callable.Basic
import ScriptLowering.Frame.Basic
import ScriptLowering.Literal.Payload
import ScriptLowering.Script.Declaration

/-!
# Lowering

One pass over the instructions of a callable turns them into statements. Constants are inlined
where they are used, declarations and the ends of uses leave no trace, and every other
instruction becomes one statement.
-/

namespace ScriptLowering

namespace Frame

/-- Lower one instruction. The result of an operation is resolved before its operands, the
arguments of a call before its result. -/
def lower (frame : Frame Literal Statement) :
    Instr → Except Failure (Frame Literal Statement)
  | .free _ => .ok frame
  | .const result type payload => do
      return frame.bindConst result (← Literal.ofConst type payload)
  | .declare result => .ok (frame.declare result).2
  | .assign result source => do
      let result ← frame.resolve result
      return frame.emit (.assign result (← frame.resolve source))
  | .fetch result object property => do
      let result ← frame.resolve result
      return frame.emit (.fetch result (← frame.resolve object) property)
  | .unary op result operand => do
      let result ← frame.resolve result
      return frame.emit (.unary op result (← frame.resolve operand))
  | .binary op result left right => do
      let result ← frame.resolve result
      let left ← frame.resolve left
      return frame.emit (.binary op result left (← frame.resolve right))
  | .label target =>
      let (name, frame) := frame.mention target
      .ok (frame.emit (.label name))
  | .jump target =>
      let (name, frame) := frame.mention target
      .ok (frame.emit (.jump name))
  | .jumpIfFalse condition target => do
      let condition ← frame.resolve condition
      let (name, frame) := frame.mention target
      return frame.emit (.jumpIfFalse condition name)
  | .ret none => .ok (frame.emit (.ret none))
  | .ret (some value) => do
      return frame.emit (.ret (some (← frame.resolve value)))
  | .call result callee arguments => do
      let arguments ← arguments.mapM frame.resolve
      return frame.emit (.call (← frame.resolve result) callee arguments)
  | .recurse => .error .recursion

/-- Lower instructions that may turn out to be unreadable, up to the first failure of either
kind. -/
def lowerAll (frame : Frame Literal Statement) (instrs : List (Except Failure Instr)) :
    Except Failure (Frame Literal Statement) :=
  instrs.foldlM (fun frame instr => do frame.lower (← instr)) frame

end Frame

namespace Header

/-- The function of a header and its instructions in lowered code. -/
def lower (header : Header) (naming : Naming) (instrs : List (Except Failure Instr)) :
    Except Failure String := do
  let (params, frame) := (Frame.start naming).declareAll header.params
  let final ← frame.lowerAll instrs
  return Script.function header.name params (final.output Statement.render)

end Header

namespace Callable

/-- The function of a callable in lowered code. -/
def lower (callable : Callable) (naming : Naming) : Except Failure String :=
  callable.toHeader.lower naming (callable.body.map .ok)

end Callable

end ScriptLowering
