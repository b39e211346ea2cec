import ScriptLowering.Failure
import ScriptLowering.Literal.Basic
import ScriptLowering.Number.Numeral
import ScriptLowering.Text.Blank

/-!
# Payloads

A constant arrives as a type and a payload text. Numbers are read from the front of the payload,
whatever follows them, and a number that is missing is zero. Strings are encoded in base64. The
writers here make the payloads from which the readers get the value back.
-/

namespace ScriptLowering

namespace Payload

/-- The greatest integer of 64 bits with a sign. The least is the negative of its successor. -/
def greatestInt : Nat := 9223372036854775807

/-- The integer at the front of a text, clamped to 64 bits with a sign. -/
def readInt (text : List Char) : Int :=
  let (sign, unsigned) := Numeral.splitSign (Blank.trimStart text)
  let digits := unsigned.takeWhile Char.isDigit
  if sign = ['-'] then -(Numeral.saturatingNatOfDigits (greatestInt + 1) digits : Int)
  else Numeral.saturatingNatOfDigits greatestInt digits

/-- The truth value that a text names, as an integer, or the integer at its front. -/
def readBool (text : List Char) : Int :=
  let trimmed := Blank.trim text
  if trimmed = ['t', 'r', 'u', 'e'] then 1
  else if trimmed = ['f', 'a', 'l', 's', 'e'] then 0
  else readInt trimmed

/-- The floating-point number at the front of a text. -/
def readFloat (text : List Char) : Binary64 :=
  match Numeral.scan? (Blank.trimStart text) with
  | some (numeral, _) => numeral.toBinary64
  | none => Binary64.zero false

/-- The string that a text encodes, white space at its ends apart. -/
def readString (text : String) : Except PayloadFault String :=
  match Base64.decode (Utf8.encode (Blank.trim text.toList)) with
  | .error fault => .error (.base64 fault)
  | .ok bytes =>
      match Utf8.decode bytes with
      | .error fault => .error (.utf8 fault)
      | .ok letters => .ok (String.ofList letters)

/-- The payload of a string. -/
def ofString (value : String) : String :=
  String.ofList ((Base64.encode (Utf8.encode value.toList)).map fun byte => Char.ofNat byte.toNat)

/-- The payload of an integer. -/
def ofInt (value : Int) : String :=
  toString value

/-- Floating-point payloads are always positional, and a whole value has no fraction. -/
def layout : Layout where
  tie := .away
  isPositional _ := true
  whole := []
  plus := []

/-- The payload of a floating-point number. -/
def ofFloat (value : Binary64) : String :=
  if value.isFinite then String.ofList (layout.write value)
  else if value.isInfinite then if value.negative then "-inf" else "inf"
  else "NaN"

end Payload

namespace Literal

/-- The literal of a constant. -/
def ofConst (type : ConstType) (payload : String) : Except Failure Literal :=
  match type with
  | .bool => .ok (.int (Payload.readBool payload.toList))
  | .long | .numeric => .ok (.int (Payload.readInt payload.toList))
  | .double => .ok (.float (Payload.readFloat payload.toList))
  | .string =>
      match Payload.readString payload with
      | .ok value => .ok (.text value)
      | .error fault => .error (.payload fault)

end Literal

end ScriptLowering
