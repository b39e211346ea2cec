import ScriptLowering.Number.Binary64

/-!
# Correct rounding

The nearest binary floating-point number to a decimal, with a half going to the even neighbour.
Rounding takes place on the magnitude order: in the binade of a quotient the magnitudes are
equally spaced, and a carry out of the binade lands on the first magnitude of the next.
-/

namespace ScriptLowering

/-- The whole number nearest to `numerator / denominator`, a half going to the even one. -/
def roundHalfEven (numerator denominator : Nat) : Nat :=
  let quotient := numerator / denominator
  let twice := 2 * (numerator % denominator)
  if twice < denominator then quotient
  else if denominator < twice then quotient + 1
  else quotient + quotient % 2

namespace Binary64

/-- The number of units in one. -/
def unitsOfOne : Nat := Nat.pow 2 1074

/-- The magnitude nearest to `numerator / denominator` units, as if there were no greatest one. -/
def nearestMagnitude (numerator denominator : Nat) : Nat :=
  let binade := Nat.log2 (numerator / denominator) - 52
  binade * fractions + roundHalfEven numerator (denominator * Nat.pow 2 binade)

/-- The number nearest to `digits * 10 ^ exponent` of a sign. Powers of ten that decide the
result by themselves, because the value is beyond the greatest number or below half the least,
are not computed. -/
def ofDecimal (negative : Bool) (digits : Nat) (exponent : Int) : Binary64 :=
  if digits = 0 then zero negative
  else
    match exponent with
    | .ofNat power =>
        if 309 < power then infinity negative
        else ofMagnitude negative (nearestMagnitude (digits * Nat.pow 10 power * unitsOfOne) 1)
    | .negSucc power =>
        if Nat.log2 digits + 1080 < 3 * (power + 1) then zero negative
        else
          ofMagnitude negative (nearestMagnitude (digits * unitsOfOne) (Nat.pow 10 (power + 1)))

/-- The product of the absolute values of two finite numbers. -/
def product (x y : Binary64) : Binary64 :=
  ofMagnitude false (nearestMagnitude (x.units * y.units) unitsOfOne)

/-- The quotient of the absolute values of two finite numbers. -/
def quotient (x y : Binary64) : Binary64 :=
  ofMagnitude false (nearestMagnitude (x.units * unitsOfOne) y.units)

end Binary64

end ScriptLowering
