import ScriptLowering.Callable.Basic
import ScriptLowering.Callable.Tuple

/-!
# Reading callables

A callable in tuple form is a header, its parameters, the mark `begin` and its instructions. The
header can be read by itself, and the instructions one by one, so that a body may be lowered
while it is being read.
-/

namespace ScriptLowering

namespace Instr

/-- The call that a tuple stands for: the callee, the arguments and at last the result. -/
def ofCallTuple (tuple : Tuple) : Except Failure Instr := do
  let last := tuple.fields.length - 1
  if last < 2 then
    .error (.item tuple.index .noResult)
  else
    let arguments ← (List.range' 2 (last - 2)).mapM tuple.variableAt
    let callee ← tuple.text 1
    return .call (← tuple.variableAt last) callee arguments

/-- The operation that a tuple with the symbol of an operator stands for. -/
def ofOperatorTuple (tuple : Tuple) (symbol : String) : Except Failure Instr := do
  match UnaryOp.ofSymbol? symbol, BinaryOp.ofSymbol? symbol with
  | some op, _ =>
      let operand ← tuple.variableAt 1
      return .unary op (← tuple.variableAt 2) operand
  | none, some op =>
      let left ← tuple.variableAt 1
      let right ← tuple.variableAt 2
      return .binary op (← tuple.variableAt 3) left right
  | none, none => .error (.operation symbol)

/-- The constant that a tuple stands for. -/
def ofConstTuple (tuple : Tuple) : Except Failure Instr := do
  let result ← tuple.variableAt 1
  let tag ← tuple.text 2
  match ConstType.ofTag? tag with
  | some type => return .const result type (← tuple.payload 3)
  | none => .error (.constType tag)

/-- The return that a tuple stands for: with a variable, with null or with nothing behind it. -/
def ofReturnTuple (tuple : Tuple) : Except Failure Instr := do
  match tuple.fields[1]? with
  | none | some .null => return .ret none
  | some _ => return .ret (some (← tuple.variableAt 1))

/-- The instruction that a tuple stands for. -/
def ofTuple (tuple : Tuple) : Except Failure Instr := do
  match ← tuple.text 0 with
  | "free" => return .free (← tuple.variableAt 1)
  | "const" => ofConstTuple tuple
  | "var" => return .declare (← tuple.variableAt 1)
  | "assign" =>
      let source ← tuple.variableAt 1
      return .assign (← tuple.variableAt 2) source
  | "propertyfetch" =>
      let property ← tuple.text 1
      let object ← tuple.variableAt 2
      return .fetch (← tuple.variableAt 3) object property
  | "label" => return .label (← tuple.labelAt 1)
  | "jump" => return .jump (← tuple.labelAt 1)
  | "jumpz" =>
      let condition ← tuple.variableAt 1
      return .jumpIfFalse condition (← tuple.labelAt 2)
  | "return" => ofReturnTuple tuple
  | "recurse" => return .recurse
  | "functioncall" => ofCallTuple tuple
  | symbol => ofOperatorTuple tuple symbol

/-- The instruction that the item at an index stands for. -/
def ofItem (index : Nat) (item : Json) : Except Failure Instr := do
  ofTuple (← Tuple.ofItem index item)

/-- What each of the items from an index on stands for. -/
def ofItems (start : Nat) (items : List Json) : List (Except Failure Instr) :=
  (items.zipIdx start).map fun (item, index) => ofItem index item

/-- All instructions, or the first failure. Behind a recursive call, the recursion is the failure
that is reported. -/
def collect (recursive : Bool) : List (Except Failure Instr) → Except Failure (List Instr)
  | [] => .ok []
  | .ok instr :: rest => do
      return instr :: (← collect (recursive || instr == .recurse) rest)
  | .error failure :: _ => .error (if recursive then .recursion else failure)

end Instr

/-- A callable of which the header has been read and the body has not. -/
structure Opening where
  /-- The header. -/
  header : Header
  /-- The index of the first item of the body. -/
  bodyStart : Nat
  /-- The items of the body. -/
  items : List Json

namespace Opening

/-- What each item of the body stands for. -/
def instrs (opening : Opening) : List (Except Failure Instr) :=
  Instr.ofItems opening.bodyStart opening.items

/-- The whole callable. -/
def decode (opening : Opening) : Except Failure Callable := do
  return { opening.header with body := ← Instr.collect false opening.instrs }

/-- Read the parameters from an index on, up to the mark in front of the body. -/
def ofItems (kind : CallableKind) (name : String) (declared : Nat) (params : List Variable)
    (index : Nat) : List Json → Except Failure Opening
  | [] => .error (.item index .missingBegin)
  | item :: rest => do
      let tuple ← Tuple.ofItem index item
      match ← tuple.text 0 with
      | "begin" =>
          if params.length = declared then return ⟨⟨kind, name, params⟩, index + 1, rest⟩
          else .error (.item index (.parameterCount declared params.length))
      | "param" =>
          ofItems kind name declared (params ++ [← tuple.variableAt 1]) (index + 1) rest
      | tag => .error (.item index (.strayItem tag))

/-- The most parameters that fit into memory: a parameter takes four bytes, and a block of memory
has less than `2 ^ 63`. -/
def capacity : Nat := 2305843009213693951

/-- Read the items behind a header. Room for the declared parameters is made before the first of
them is read, so a count beyond the capacity is an overflow, whatever else is wrong with the items.
Items that do have as many parameters would have to be in memory themselves. -/
def afterHeader (kind : CallableKind) (name : String) (declared : Nat) (items : List Json) :
    Except Failure Opening :=
  match ofItems kind name declared [] 1 items with
  | .ok opening => .ok opening
  | .error failure => .error (if declared ≤ capacity then failure else .overflow)

end Opening

namespace Callable

/-- The header tuple of a callable in tuple form, and the items behind it. -/
def split (value : Json) : Except Failure (Tuple × List Json) := do
  match value with
  | .array (header :: items) => return (← Tuple.ofItem 0 header, items)
  | .array [] => .error (.item 0 .noHeader)
  | _ => .error (.item 0 .notAnArray)

/-- The name that a callable in tuple form declares. -/
def declaredName (value : Json) : Except Failure String := do
  (← split value).1.text 1

/-- Read the header of a callable in tuple form. -/
def openTuples (value : Json) : Except Failure Opening := do
  let (header, items) ← split value
  let tag ← header.text 0
  match CallableKind.ofTag? tag with
  | some kind =>
      let name ← header.text 1
      let declared ← header.count 2
      Opening.afterHeader kind name declared items
  | none => .error (.item 0 (.unknownKind tag))

/-- The callable in tuple form. -/
def decode (value : Json) : Except Failure Callable := do
  (← openTuples value).decode

end Callable

end ScriptLowering
