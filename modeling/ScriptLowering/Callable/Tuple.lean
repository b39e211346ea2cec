import ScriptLowering.Failure
import ScriptLowering.Json.Printer
import ScriptLowering.Number.Numeral

/-!
# Tuples

A callable travels as an array of tuples, and a tuple is a non-empty array of fields. Every
reader here names the item and the field at which it fails. Surplus fields are of no account.
-/

namespace ScriptLowering

/-- An item of a callable in tuple form. -/
structure Tuple where
  /-- The place of the item in the callable. -/
  index : Nat
  /-- The fields of the item. -/
  fields : List Json

namespace Tuple

/-- The tuple that an item is. -/
def ofItem (index : Nat) : Json → Except Failure Tuple
  | .array [] => .error (.item index .emptyTuple)
  | .array fields => .ok ⟨index, fields⟩
  | _ => .error (.item index .notATuple)

/-- The field at a position. -/
def field (tuple : Tuple) (position : Nat) : Except Failure Json :=
  match tuple.fields[position]? with
  | some value => .ok value
  | none => .error (.item tuple.index (.missing position))

/-- The string at a position. -/
def text (tuple : Tuple) (position : Nat) : Except Failure String := do
  match ← tuple.field position with
  | .string value => .ok value
  | _ => .error (.item tuple.index (.notAString position))

/-- The unsigned integer at a position. -/
def count (tuple : Tuple) (position : Nat) : Except Failure Nat := do
  match (← tuple.field position).nat? with
  | some value => .ok value
  | none => .error (.item tuple.index (.notACount position))

/-- The 32-bit number with a value. -/
def wordOfNat? (value : Nat) : Option UInt32 :=
  if value < 4294967296 then some (UInt32.ofNat value) else none

/-- The 32-bit number that a text spells: digits, with an optional plus sign. -/
def wordOfText? (text : List Char) : Option UInt32 :=
  let digits :=
    match text with
    | '+' :: rest => rest
    | _ => text
  if digits.isEmpty || !digits.all Char.isDigit then none
  else wordOfNat? (Numeral.natOfDigits digits)

/-- The 32-bit identifier that a value is: an unsigned integer or a text that spells one. -/
def word? : Json → Option UInt32
  | .number (.integer (.ofNat value)) => wordOfNat? value
  | .string value => wordOfText? value.toList
  | _ => none

/-- The identifier at a position. -/
def word (tuple : Tuple) (position : Nat) : Except Failure UInt32 := do
  let value ← tuple.field position
  match word? value with
  | some word => .ok word
  | none => .error (.item tuple.index (.notAnId position value.render))

/-- The variable at a position: `$this` is the receiver, whose identifier is no variable's. -/
def variableAt (tuple : Tuple) (position : Nat) : Except Failure Variable := do
  match ← tuple.field position with
  | .string "$this" => .ok .receiver
  | _ =>
      match Variable.ofWord (← tuple.word position) with
      | .receiver => .error (.item tuple.index (.reservedId position))
      | slot => .ok slot

/-- The label at a position. -/
def labelAt (tuple : Tuple) (position : Nat) : Except Failure Label := do
  return ⟨← tuple.word position⟩

/-- The payload text of a scalar. -/
def payload? : Json → Option String
  | .null => some ""
  | .bool true => some "1"
  | .bool false => some ""
  | .number value => some value.render
  | .string value => some value
  | .array _ | .object _ => none

/-- The payload at a position. -/
def payload (tuple : Tuple) (position : Nat) : Except Failure String := do
  let value ← tuple.field position
  match payload? value with
  | some text => .ok text
  | none => .error (.item tuple.index (.notAScalar position value.render))

end Tuple

end ScriptLowering
