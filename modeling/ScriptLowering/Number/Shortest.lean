import ScriptLowering.Number.Rounding

/-!
# Shortest decimals

The decimal with the fewest digits that rounds back to a given number, and among those the one
nearest to it. A finite number is a whole multiple of `10 ^ (-1074)`, so its two neighbours on
a coarser decimal grid come from one division.
-/

namespace ScriptLowering

/-- The decimal `digits * 10 ^ exponent`. -/
structure Decimal where
  /-- The coefficient. -/
  digits : Nat
  /-- The power of ten. -/
  exponent : Int
  deriving DecidableEq

/-- Which of two equally near decimals is taken. -/
inductive Tie where
  /-- The one with the even coefficient. -/
  | even
  /-- The one of larger absolute value. -/
  | away
  deriving DecidableEq

namespace Tie

/-- An exact half above `coefficient` goes down. -/
def goesDown (tie : Tie) (coefficient : Nat) : Bool :=
  match tie with
  | .even => coefficient % 2 == 0
  | .away => false

end Tie

namespace Binary64

/-- The absolute value of a finite number as a multiple of `10 ^ (-1074)`. -/
def exactDigits (x : Binary64) : Nat :=
  x.units * Nat.pow 5 1074

/-- The two multiples of `10 ^ place` next to `exact`, as coefficients, the nearer one first. -/
def neighbours (tie : Tie) (exact place : Nat) : List Nat :=
  let grid := Nat.pow 10 place
  let below := exact / grid
  let twice := 2 * (exact % grid)
  if twice < grid ∨ (twice = grid ∧ tie.goesDown below) then [below, below + 1]
  else [below + 1, below]

/-- The decimals with at most `count` digits that may stand for `exact * 10 ^ (-1074)`: fewer
digits first and then the nearer first. -/
def candidates (tie : Tie) (exact count : Nat) : List Decimal :=
  let size := (Nat.toDigits 10 exact).length
  (List.range count).flatMap fun shorter =>
    let place := size - (shorter + 1)
    (neighbours tie exact place).map fun digits => ⟨digits, (place : Int) - 1074⟩

/-- The decimal rounds back to the number, sign apart. -/
def readsBack (x : Binary64) (decimal : Decimal) : Bool :=
  ofDecimal x.negative decimal.digits decimal.exponent == x

/-- The shortest decimal that rounds back to a finite number, sign apart. Seventeen digits always
suffice. -/
def shortest (tie : Tie) (x : Binary64) : Decimal :=
  ((candidates tie x.exactDigits 17).find? x.readsBack).getD ⟨x.exactDigits, -1074⟩

end Binary64

end ScriptLowering
