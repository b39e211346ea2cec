import ScriptLowering.Number.Shortest

/-!
# Layouts of decimals

How the shortest decimal of a floating-point number is written: positionally or with an
exponent, and with or without a fraction when the value is whole.
-/

namespace ScriptLowering

/-- The digits of a decimal without trailing zeros, and the power of ten of its first digit. -/
structure Figures where
  /-- The digits, at least one. -/
  digits : List Char
  /-- The power of ten of the first digit. -/
  leading : Int

namespace Figures

/-- The figures of a decimal. Zero has the single digit `0` at power zero. -/
def ofDecimal (decimal : Decimal) : Figures :=
  let digits := Nat.toDigits 10 decimal.digits
  let kept := (digits.reverse.dropWhile (· == '0')).reverse
  if kept.isEmpty then ⟨['0'], 0⟩
  else ⟨kept, decimal.exponent + (digits.length : Int) - 1⟩

/-- The positional spelling, with `whole` behind a value that has no fraction. -/
def positional (whole : List Char) (figures : Figures) : List Char :=
  match figures.leading with
  | .ofNat power =>
      let before := power + 1
      if figures.digits.length ≤ before then
        figures.digits ++ List.replicate (before - figures.digits.length) '0' ++ whole
      else
        figures.digits.take before ++ '.' :: figures.digits.drop before
  | .negSucc power => '0' :: '.' :: (List.replicate power '0' ++ figures.digits)

/-- The spelling with an exponent, with `plus` in front of one that is not negative. -/
def scientific (plus : List Char) (figures : Figures) : List Char :=
  let mantissa :=
    match figures.digits with
    | first :: second :: rest => first :: '.' :: second :: rest
    | digits => digits
  let exponent :=
    match figures.leading with
    | .ofNat power => plus ++ Nat.toDigits 10 power
    | .negSucc power => '-' :: Nat.toDigits 10 (power + 1)
  mantissa ++ 'e' :: exponent

end Figures

/-- A way of writing finite numbers. -/
structure Layout where
  /-- Which of two equally near shortest decimals is written. -/
  tie : Tie
  /-- The powers of ten of the first digit for which the spelling is positional. -/
  isPositional : Int → Bool
  /-- What follows a positional value that has no fraction. -/
  whole : List Char
  /-- What stands in front of an exponent that is not negative. -/
  plus : List Char

namespace Layout

/-- The spelling of a finite number. -/
def write (layout : Layout) (x : Binary64) : List Char :=
  let figures := Figures.ofDecimal (if x.units = 0 then ⟨0, 0⟩ else x.shortest layout.tie)
  let spelling :=
    if layout.isPositional figures.leading then figures.positional layout.whole
    else figures.scientific layout.plus
  if x.negative then '-' :: spelling else spelling

end Layout

end ScriptLowering
