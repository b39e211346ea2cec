import ScriptLowering.Number.Shortest
import Mathlib.Tactic.Positivity
import Mathlib.Tactic.Ring

/-!
# Rounding and the shortest decimal

The magnitude nearest to a quotient depends on the quotient alone. A decimal may therefore be scaled
by powers of ten, its numerator and denominator together, and what the tests on very large and very
small powers of ten cut short is no other number than the rounding would give. A finite number is
the rounding of its own exact decimal, and so its shortest decimal always reads back.
-/

namespace ScriptLowering

variable {numerator denominator factor : Nat}

theorem roundHalfEven_mul (positive : 0 < factor) :
    roundHalfEven (numerator * factor) (denominator * factor) =
      roundHalfEven numerator denominator := by
  have quotient_eq := Nat.mul_div_mul_right numerator denominator positive
  have twice_eq : 2 * (numerator * factor % (denominator * factor)) =
      2 * (numerator % denominator) * factor := by
    rw [Nat.mul_mod_mul_right, Nat.mul_assoc]
  simp only [roundHalfEven, quotient_eq, twice_eq, Nat.mul_lt_mul_right positive]

@[simp]
theorem roundHalfEven_one (value : Nat) : roundHalfEven value 1 = value := by
  simp [roundHalfEven, Nat.mod_one]

theorem div_le_roundHalfEven : numerator / denominator ≤ roundHalfEven numerator denominator := by
  simp only [roundHalfEven]
  split
  · exact Nat.le_refl _
  · split <;> omega

namespace Binary64

theorem nearestMagnitude_mul (positive : 0 < factor) :
    nearestMagnitude (numerator * factor) (denominator * factor) =
      nearestMagnitude numerator denominator := by
  simp only [nearestMagnitude, Nat.mul_div_mul_right _ _ positive, Nat.mul_right_comm _ factor,
    roundHalfEven_mul positive]

/-- Equal quotients have the same nearest magnitude. -/
theorem nearestMagnitude_congr {other otherDenominator : Nat} (positive : 0 < denominator)
    (otherPositive : 0 < otherDenominator)
    (same : numerator * otherDenominator = other * denominator) :
    nearestMagnitude numerator denominator = nearestMagnitude other otherDenominator := by
  rw [← nearestMagnitude_mul otherPositive, same, Nat.mul_comm denominator,
    nearestMagnitude_mul positive]

/-- Less than half a unit is nearest to zero. -/
theorem nearestMagnitude_of_lt (small : 2 * numerator < denominator) :
    nearestMagnitude numerator denominator = 0 := by
  have below : numerator < denominator := by omega
  simp [nearestMagnitude, roundHalfEven, Nat.div_eq_of_lt below, Nat.mod_eq_of_lt below, small]

/-- A quotient from `2 ^ (binade + 52)` units on is not below the binade that begins there. -/
theorem le_nearestMagnitude (binade : Nat) (large : 2 ^ (binade + 52) ≤ numerator / denominator) :
    (binade + 1) * fractions ≤ nearestMagnitude numerator denominator := by
  have quotient_ne : numerator / denominator ≠ 0 := by
    have := Nat.two_pow_pos (binade + 52)
    omega
  have log_large := (Nat.le_log2 quotient_ne).mpr large
  -- The binade of the quotient, which may lie above the given one.
  obtain ⟨found, log_eq⟩ : ∃ found, (numerator / denominator).log2 = found + 52 :=
    Nat.exists_eq_add_of_le' (by omega)
  have binade_le : binade ≤ found := by omega
  have leading : fractions ≤ numerator / (denominator * 2 ^ found) := by
    rw [← Nat.div_div_eq_div_mul, Nat.le_div_iff_mul_le (Nat.two_pow_pos found)]
    calc fractions * 2 ^ found = 2 ^ (found + 52) := by rw [pow_add, Nat.mul_comm]; rfl
      _ ≤ numerator / denominator := log_eq ▸ Nat.log2_self_le quotient_ne
  calc (binade + 1) * fractions
      ≤ (found + 1) * fractions := Nat.mul_le_mul_right _ (by omega)
    _ = found * fractions + fractions := Nat.succ_mul _ _
    _ ≤ found * fractions + roundHalfEven numerator (denominator * 2 ^ found) :=
        Nat.add_le_add_left (leading.trans div_le_roundHalfEven) _
    _ = nearestMagnitude numerator denominator := by
        rw [nearestMagnitude, log_eq, Nat.add_sub_cancel]
        rfl

/-- The magnitude nearest to `digits * 10 ^ exponent`, with both parts of the quotient written
out. -/
def decimalMagnitude (digits : Nat) (exponent : Int) : Nat :=
  nearestMagnitude (digits * 10 ^ exponent.toNat * unitsOfOne) (10 ^ (-exponent).toNat)

theorem ofMagnitude_of_le {negative : Bool} {magnitude : Nat}
    (large : infiniteMagnitude ≤ magnitude) : ofMagnitude negative magnitude = infinity negative :=
  if_neg (Nat.not_lt.mpr large)

@[simp]
theorem ofMagnitude_zero (negative : Bool) : ofMagnitude negative 0 = zero negative := rfl

variable {negative : Bool} {digits : Nat}

theorem unitsOfOne_eq : unitsOfOne = 2 ^ 1074 := by decide +kernel

theorem unitsOfOne_pos : 0 < unitsOfOne := by
  rw [unitsOfOne_eq]
  positivity

/-- Infinity is nearest to a decimal with a power of ten beyond the greatest number. -/
theorem infiniteMagnitude_le {power : Nat} (digits_ne : digits ≠ 0) (large : 309 < power) :
    infiniteMagnitude ≤ nearestMagnitude (digits * 10 ^ power * unitsOfOne) 1 := by
  have greatest : 2 ^ (2046 + 52) ≤ 10 ^ 310 * unitsOfOne := by decide +kernel
  have power_le : 10 ^ 310 ≤ digits * 10 ^ power :=
    calc 10 ^ 310 ≤ 10 ^ power := pow_le_pow_right₀ (by decide) large
      _ ≤ digits * 10 ^ power := Nat.le_mul_of_pos_left _ (Nat.pos_of_ne_zero digits_ne)
  apply le_nearestMagnitude 2046
  rw [Nat.div_one]
  exact greatest.trans (Nat.mul_le_mul_right _ power_le)

/-- Zero is nearest to a decimal below half a unit, which the lengths of its two parts may show. -/
theorem nearestMagnitude_eq_zero {power : Nat} (small : Nat.log2 digits + 1080 < 3 * power) :
    nearestMagnitude (digits * unitsOfOne) (10 ^ power) = 0 := by
  apply nearestMagnitude_of_lt
  calc 2 * (digits * unitsOfOne)
      < 2 * (2 ^ (digits.log2 + 1) * unitsOfOne) :=
        Nat.mul_lt_mul_of_pos_left
          (Nat.mul_lt_mul_of_pos_right Nat.lt_log2_self unitsOfOne_pos) (by decide)
    _ = 2 ^ (digits.log2 + 1 + 1074 + 1) := by
        rw [unitsOfOne_eq, ← pow_add, ← pow_succ']
    _ ≤ 2 ^ (3 * power) := pow_le_pow_right₀ (by decide) (by omega)
    _ = 8 ^ power := pow_mul 2 3 power
    _ ≤ 10 ^ power := Nat.pow_le_pow_left (by decide) power

@[simp]
theorem ofDecimal_zero (negative : Bool) (exponent : Int) :
    ofDecimal negative 0 exponent = zero negative := by
  unfold ofDecimal
  exact if_pos rfl

/-- A decimal is rounded to the nearest number, whether its power of ten is computed or not. -/
theorem ofDecimal_eq (digits_ne : digits ≠ 0) (exponent : Int) :
    ofDecimal negative digits exponent =
      ofMagnitude negative (decimalMagnitude digits exponent) := by
  unfold ofDecimal
  rw [if_neg digits_ne]
  cases exponent with
  | ofNat power =>
      have magnitude_eq : decimalMagnitude digits (.ofNat power) =
          nearestMagnitude (digits * 10 ^ power * unitsOfOne) 1 := by
        rw [decimalMagnitude]
        simp
      rw [magnitude_eq]
      dsimp only
      split
      · rename_i large
        exact (ofMagnitude_of_le (infiniteMagnitude_le digits_ne large)).symm
      · rfl
  | negSucc power =>
      have magnitude_eq : decimalMagnitude digits (.negSucc power) =
          nearestMagnitude (digits * unitsOfOne) (10 ^ (power + 1)) := by
        rw [decimalMagnitude, Int.toNat_negSucc, pow_zero, Nat.mul_one]
        rfl
      rw [magnitude_eq]
      dsimp only
      split
      · rename_i small
        rw [nearestMagnitude_eq_zero small, ofMagnitude_zero]
      · rfl

theorem decimalMagnitude_scale (digits places : Nat) (exponent : Int) :
    decimalMagnitude (digits * 10 ^ places) exponent =
      decimalMagnitude digits (exponent + places) := by
  apply nearestMagnitude_congr (by positivity) (by positivity)
  have powers_eq : places + exponent.toNat + (-(exponent + places)).toNat =
      (exponent + places).toNat + (-exponent).toNat := by omega
  calc digits * 10 ^ places * 10 ^ exponent.toNat * unitsOfOne * 10 ^ (-(exponent + places)).toNat
      = digits * 10 ^ (places + exponent.toNat + (-(exponent + places)).toNat) * unitsOfOne := by
        rw [pow_add, pow_add]
        ring
    _ = digits * 10 ^ (exponent + places).toNat * unitsOfOne * 10 ^ (-exponent).toNat := by
        rw [powers_eq, pow_add]
        ring

/-- Zeros behind the digits of a decimal may be counted in its power of ten. -/
theorem ofDecimal_scale (negative : Bool) (digits places : Nat) (exponent : Int) :
    ofDecimal negative (digits * 10 ^ places) exponent =
      ofDecimal negative digits (exponent + places) := by
  by_cases digits_eq : digits = 0
  · rw [digits_eq, Nat.zero_mul, ofDecimal_zero, ofDecimal_zero]
  · have scaled_ne : digits * 10 ^ places ≠ 0 :=
      Nat.mul_ne_zero digits_eq (by positivity)
    rw [ofDecimal_eq scaled_ne, ofDecimal_eq digits_eq, decimalMagnitude_scale]

variable {x : Binary64}

theorem ofMagnitude_magnitude (finite : x.isFinite) : ofMagnitude x.negative x.magnitude = x := by
  have exponent_ne : x.exponent.val ≠ 2047 := by simpa [isFinite] using finite
  have exponent_lt := x.exponent.isLt
  have fraction_lt := x.fraction.isLt
  have below : x.magnitude < infiniteMagnitude := by
    rw [magnitude, infiniteMagnitude, fractions]
    omega
  have exponent_eq : x.magnitude / fractions % 2048 = x.exponent.val := by
    rw [magnitude, fractions]
    omega
  have fraction_eq : x.magnitude % fractions = x.fraction.val := by
    rw [magnitude, fractions]
    omega
  rw [ofMagnitude, if_pos below]
  simp only [exponent_eq, fraction_eq]

theorem log2_significand {fraction : Nat} (binade : Nat) (small : fraction < 2 ^ 52) :
    ((2 ^ 52 + fraction) * 2 ^ binade).log2 = binade + 52 := by
  have binade_pos := Nat.two_pow_pos binade
  rw [Nat.log2_eq_iff (by positivity), Nat.add_assoc, pow_add, pow_add, Nat.mul_comm (2 ^ binade),
    Nat.mul_comm (2 ^ binade)]
  constructor
  · exact Nat.mul_le_mul_right _ (Nat.le_add_right _ _)
  · exact Nat.mul_lt_mul_of_pos_right (by omega) binade_pos

/-- A number is a whole number of units, and so it is nearest to itself. -/
theorem nearestMagnitude_units (x : Binary64) : nearestMagnitude x.units 1 = x.magnitude := by
  have fraction_lt : x.fraction.val < 2 ^ 52 := x.fraction.isLt
  rw [nearestMagnitude, units, magnitude, Nat.div_one]
  cases exponent_eq : x.exponent.val with
  | zero =>
      have log_small : x.fraction.val.log2 ≤ 52 := by
        by_cases fraction_eq : x.fraction.val = 0
        · simp [fraction_eq]
        · exact Nat.le_of_lt ((Nat.log2_lt fraction_eq).mpr fraction_lt)
      simp [Nat.sub_eq_zero_of_le log_small]
  | succ binade =>
      have significand_eq : ((fractions + x.fraction.val) * 2 ^ binade).log2 = binade + 52 :=
        log2_significand binade fraction_lt
      have rounded : roundHalfEven ((fractions + x.fraction.val) * 2 ^ binade) (1 * 2 ^ binade) =
          fractions + x.fraction.val := by
        rw [roundHalfEven_mul (Nat.two_pow_pos binade), roundHalfEven_one]
      rw [if_neg (Nat.succ_ne_zero binade), Nat.add_sub_cancel, Nat.pow_eq, significand_eq,
        Nat.add_sub_cancel, Nat.pow_eq, rounded, Nat.succ_mul, Nat.add_assoc]

/-- The exact decimal of a finite number reads back. -/
theorem ofDecimal_exactDigits (finite : x.isFinite) (units_ne : x.units ≠ 0) :
    ofDecimal x.negative x.exactDigits (-1074) = x := by
  have exact_ne : x.exactDigits ≠ 0 := Nat.mul_ne_zero units_ne (by decide +kernel)
  have powers_eq : Nat.pow 5 1074 * unitsOfOne = 10 ^ (-(-1074 : Int)).toNat := by decide +kernel
  have magnitude_eq : decimalMagnitude x.exactDigits (-1074) = x.magnitude := by
    rw [← nearestMagnitude_units x]
    apply nearestMagnitude_congr (by positivity) Nat.one_pos
    calc x.exactDigits * 10 ^ (-1074 : Int).toNat * unitsOfOne * 1
        = x.units * (Nat.pow 5 1074 * unitsOfOne) := by
          rw [exactDigits, Nat.mul_one, Int.toNat_of_nonpos (by decide), pow_zero, Nat.mul_one,
            Nat.mul_assoc]
      _ = x.units * 10 ^ (-(-1074 : Int)).toNat := by rw [powers_eq]
  rw [ofDecimal_eq exact_ne, magnitude_eq, ofMagnitude_magnitude finite]

/-- The shortest decimal of a finite number other than zero reads back. -/
theorem ofDecimal_shortest (tie : Tie) (finite : x.isFinite) (units_ne : x.units ≠ 0) :
    ofDecimal x.negative (x.shortest tie).digits (x.shortest tie).exponent = x := by
  rw [shortest]
  cases found : (candidates tie x.exactDigits 17).find? x.readsBack with
  -- That seventeen digits always suffice is not needed: the exact decimal stands in otherwise.
  | none => exact ofDecimal_exactDigits finite units_ne
  | some decimal =>
      have reads_back : x.readsBack decimal := List.find?_some found
      exact eq_of_beq reads_back

theorem eq_zero_of_units (units_eq : x.units = 0) : x = zero x.negative := by
  obtain ⟨negative, exponent, fraction⟩ := x
  rw [units] at units_eq
  split at units_eq
  · rename_i exponent_eq
    exact congrArg₂ (Binary64.mk negative) (Fin.ext exponent_eq) (Fin.ext units_eq)
  · have significand_ne : fractions + fraction.val ≠ 0 := by
      rw [fractions]
      omega
    exact absurd units_eq (Nat.mul_ne_zero significand_ne (Nat.two_pow_pos _).ne')

/-- The decimal that layouts write for a finite number, sign apart. -/
def decimal (tie : Tie) (x : Binary64) : Decimal :=
  if x.units = 0 then ⟨0, 0⟩ else x.shortest tie

/-- What layouts write for a finite number reads back. -/
theorem ofDecimal_decimal (tie : Tie) (finite : x.isFinite) :
    ofDecimal x.negative (x.decimal tie).digits (x.decimal tie).exponent = x := by
  rw [decimal]
  split
  · rename_i units_eq
    rw [ofDecimal_zero]
    exact (eq_zero_of_units units_eq).symm
  · rename_i units_ne
    exact ofDecimal_shortest tie finite units_ne

end Binary64

end ScriptLowering
