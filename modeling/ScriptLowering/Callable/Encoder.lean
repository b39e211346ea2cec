import ScriptLowering.Callable.Basic
import ScriptLowering.Json.Basic

/-!
# Writing callables

The tuple form of a callable, in which each field has one canonical spelling: identifiers are
integers, the receiver is `$this` and payloads are strings.
-/

namespace ScriptLowering

/-- The field of a variable. -/
def Variable.encode : Variable → Json
  | .receiver => .string "$this"
  | .slot id => .ofNat id.val

/-- The field of a label. -/
def Label.encode (label : Label) : Json :=
  .ofNat label.id.toNat

/-- The tuple of an instruction. -/
def Instr.encode : Instr → Json
  | .const result type payload =>
      .array [.string "const", result.encode, .string type.tag, .string payload]
  | .declare result => .array [.string "var", result.encode]
  | .assign result source => .array [.string "assign", source.encode, result.encode]
  | .fetch result object property =>
      .array [.string "propertyfetch", .string property, object.encode, result.encode]
  | .unary op result operand =>
      .array [.string op.symbol, operand.encode, result.encode]
  | .binary op result left right =>
      .array [.string op.symbol, left.encode, right.encode, result.encode]
  | .label target => .array [.string "label", target.encode]
  | .jump target => .array [.string "jump", target.encode]
  | .jumpIfFalse condition target =>
      .array [.string "jumpz", condition.encode, target.encode]
  | .ret none => .array [.string "return"]
  | .ret (some value) => .array [.string "return", value.encode]
  | .call result callee arguments =>
      .array ([.string "functioncall", .string callee] ++ arguments.map Variable.encode
        ++ [result.encode])
  | .free subject => .array [.string "free", subject.encode]
  | .recurse => .array [.string "recurse"]

namespace Callable

/-- The header tuple of a callable. -/
def encodeHeader (callable : Callable) : Json :=
  .array [.string callable.kind.tag, .string callable.name, .ofNat callable.params.length]

/-- The tuple form of a callable. -/
def encode (callable : Callable) : Json :=
  .array (callable.encodeHeader
    :: callable.params.map (fun param => .array [.string "param", param.encode])
    ++ .array [.string "begin"] :: callable.body.map Instr.encode)

end Callable

end ScriptLowering
