/-!
# Hexadecimal digits
-/

namespace ScriptLowering

namespace Hex

/-- The lower-case digit of a value below sixteen. -/
def digit (value : Nat) : Char :=
  if value < 10 then Char.ofNat ('0'.toNat + value) else Char.ofNat ('a'.toNat + (value - 10))

/-- The value of a digit in either case. -/
def value? (digit : Char) : Option Nat :=
  if '0' ≤ digit ∧ digit ≤ '9' then some (digit.toNat - '0'.toNat)
  else if 'a' ≤ digit ∧ digit ≤ 'f' then some (digit.toNat - 'a'.toNat + 10)
  else if 'A' ≤ digit ∧ digit ≤ 'F' then some (digit.toNat - 'A'.toNat + 10)
  else none

/-- The number that a run of digits spells. -/
def number? (digits : List Char) : Option Nat :=
  digits.foldlM (fun number digit => (value? digit).map (16 * number + ·)) 0

/-- The last `count` digits of a number. -/
def digits (count number : Nat) : List Char :=
  (List.range count).reverse.map fun place => digit (number / Nat.pow 16 place % 16)

end Hex

end ScriptLowering
