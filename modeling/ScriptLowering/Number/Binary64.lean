/-!
# Binary floating-point numbers

The 64-bit binary format as its three fields. The finite numbers of one sign are ordered by
their `magnitude`, and each is a whole number of units `2 ^ (-1074)`, so that every statement
about their values is one about natural numbers.
-/

namespace ScriptLowering

/-- A 64-bit binary floating-point number. -/
structure Binary64 where
  /-- The sign field. -/
  negative : Bool
  /-- The biased exponent. The greatest is that of the infinities and of the non-numbers. -/
  exponent : Fin 2048
  /-- The fraction field. -/
  fraction : Fin 4503599627370496
  deriving DecidableEq

namespace Binary64

/-- The number of fraction fields, `2 ^ 52`. -/
def fractions : Nat := 4503599627370496

/-- The weight of the sign field in the bit pattern, `2 ^ 63`. -/
def signWeight : Nat := 9223372036854775808

/-- The least magnitude that is not finite. -/
def infiniteMagnitude : Nat := 2047 * fractions

/-- The number with the given 64-bit pattern. -/
def ofBits (bits : UInt64) : Binary64 where
  negative := decide (signWeight ≤ bits.toNat)
  exponent := ⟨bits.toNat / fractions % 2048, Nat.mod_lt _ (by decide)⟩
  fraction := ⟨bits.toNat % fractions, Nat.mod_lt _ (by decide)⟩

/-- The place of a number among those of its sign, counted from zero. -/
def magnitude (x : Binary64) : Nat :=
  x.exponent.val * fractions + x.fraction.val

/-- The 64-bit pattern of a number. -/
def toBits (x : Binary64) : UInt64 :=
  UInt64.ofNat ((if x.negative then signWeight else 0) + x.magnitude)

/-- The zero of a sign. -/
def zero (negative : Bool) : Binary64 := ⟨negative, 0, 0⟩

/-- The infinity of a sign. -/
def infinity (negative : Bool) : Binary64 := ⟨negative, 2047, 0⟩

/-- The positive quiet non-number with an empty payload. -/
def nan : Binary64 := ⟨false, 2047, 2251799813685248⟩

/-- The number of a sign at a place of the magnitude order, or infinity beyond its end. -/
def ofMagnitude (negative : Bool) (magnitude : Nat) : Binary64 :=
  if magnitude < infiniteMagnitude then
    { negative
      exponent := ⟨magnitude / fractions % 2048, Nat.mod_lt _ (by decide)⟩
      fraction := ⟨magnitude % fractions, Nat.mod_lt _ (by decide)⟩ }
  else
    infinity negative

/-- The number is neither infinite nor a non-number. -/
def isFinite (x : Binary64) : Bool := x.exponent.val != 2047

/-- The number is an infinity. -/
def isInfinite (x : Binary64) : Bool := x.exponent.val == 2047 && x.fraction.val == 0

/-- The absolute value of a finite number as a multiple of `2 ^ (-1074)`. -/
def units (x : Binary64) : Nat :=
  if x.exponent.val = 0 then x.fraction.val
  else (fractions + x.fraction.val) * Nat.pow 2 (x.exponent.val - 1)

end Binary64

end ScriptLowering
