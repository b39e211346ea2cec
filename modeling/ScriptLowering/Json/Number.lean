import ScriptLowering.Json.Basic
import ScriptLowering.Number.Numeral

/-!
# Reading JSON numbers

An integer of 64 bits is read as it is. Every other number becomes a floating-point number, and
that in two steps: as many digits as fit into 64 bits are rounded, and the result is multiplied or
divided by a power of ten and rounded again. The number so found need not be the nearest one.
-/

namespace ScriptLowering

namespace JsonNumber

/-- Above the greatest unsigned integer of 64 bits. -/
def unsignedLimit : Nat := 18446744073709551616

/-- The absolute value of the least integer of 64 bits with a sign. -/
def negativeLimit : Nat := 9223372036854775808

/-- The greatest power of ten that is a floating-point number. -/
def greatestPower : Nat := 308

/-- The numeral has JSON form: no plus sign, no superfluous leading zero, and a digit on both
sides of a point. -/
def isJsonNumeral (numeral : Numeral) : Bool :=
  numeral.sign != ['+'] && !numeral.whole.isEmpty
    && (numeral.whole.length == 1 || numeral.whole.head? != some '0')
    && numeral.fraction != some []

/-- Append digits to a significand as long as it fits into 64 bits. What is returned with it is the
number of digits that are left. -/
def appendDigits (significand : Nat) : List Char → Nat × Nat
  | [] => (significand, 0)
  | digit :: rest =>
      let next := 10 * significand + Numeral.digitValue digit
      if next < unsignedLimit then appendDigits next rest else (significand, rest.length + 1)

/-- Divide a number by a power of ten, by the greatest one there is as often as it takes. -/
def divideByPower (value : Binary64) (power : Nat) : Binary64 :=
  if greatestPower < power then
    if value.units = 0 then value
    else divideByPower (value.quotient (.ofDecimal false 1 greatestPower)) (power - greatestPower)
  else value.quotient (.ofDecimal false 1 power)
termination_by power
decreasing_by
  simp only [greatestPower] at *
  omega

/-- Multiply a number by a power of ten. There is no number beyond the greatest finite one. -/
def multiplyByPower? (value : Binary64) (power : Nat) : Option Binary64 :=
  if greatestPower < power then if value.units = 0 then some value else none
  else
    let product := value.product (.ofDecimal false 1 power)
    if product.isFinite then some product else none

/-- The floating-point number for a significand with a power of ten. -/
def ofParts? (negative : Bool) (significand : Nat) (exponent : Int) : Option Binary64 := do
  let rounded := Binary64.ofDecimal false significand 0
  let value ←
    match exponent with
    | .ofNat power => multiplyByPower? rounded power
    | .negSucc power => some (divideByPower rounded (power + 1))
  return { value with negative }

/-- The number that a numeral of JSON form denotes. An integer within 64 bits stays one, except
for the negative zero. -/
def ofNumeral? (numeral : Numeral) : Option JsonNumber :=
  let negative := numeral.sign == ['-']
  let digits := Numeral.natOfDigits numeral.whole
  let isInteger := numeral.fraction.isNone && numeral.power.isNone
  if isInteger && !negative && decide (digits < unsignedLimit) then
    some (.integer digits)
  else if isInteger && negative && decide (0 < digits) && decide (digits ≤ negativeLimit) then
    some (.integer (-(digits : Int)))
  else
    let fraction := numeral.fraction.getD []
    let (whole, skipped) := appendDigits 0 numeral.whole
    let (significand, ignored) := appendDigits whole fraction
    let power := (numeral.power.map PowerOfTen.value).getD 0
    (ofParts? negative significand (power + skipped - (fraction.length - ignored : Nat))).map .float

end JsonNumber

end ScriptLowering
