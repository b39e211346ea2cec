import ScriptLowering.Literal.Basic
import ScriptLowering.Number.Numeral
import Mathlib.Data.List.Basic

/-!
# What layouts write

A layout arranges the figures of a decimal around a point or in front of an exponent. The result is
the spelling of a numeral, with digits on both sides of a point and behind the letter of an
exponent. In the layout of floating-point literals, moreover, one of the two is always there.
-/

namespace ScriptLowering

namespace Numeral

/-- A row of at least one decimal digit. -/
structure DigitRow (text : List Char) : Prop where
  nonempty : text ≠ []
  all_digits : ∀ letter ∈ text, letter.isDigit

namespace DigitRow

variable {front back text : List Char}

theorem append (row : DigitRow front) (digits : ∀ letter ∈ back, letter.isDigit) :
    DigitRow (front ++ back) where
  nonempty := List.append_ne_nil_of_left_ne_nil row.nonempty back
  all_digits := List.forall_mem_append.mpr ⟨row.all_digits, digits⟩

theorem prepend (row : DigitRow back) (digits : ∀ letter ∈ front, letter.isDigit) :
    DigitRow (front ++ back) where
  nonempty := List.append_ne_nil_of_right_ne_nil front row.nonempty
  all_digits := List.forall_mem_append.mpr ⟨digits, row.all_digits⟩

theorem take (row : DigitRow text) {count : Nat} (positive : 0 < count) :
    DigitRow (text.take count) where
  nonempty := by
    rw [ne_eq, List.take_eq_nil_iff]
    exact not_or.mpr ⟨Nat.ne_of_gt positive, row.nonempty⟩
  all_digits := fun letter listed => row.all_digits letter (List.mem_of_mem_take listed)

theorem drop (row : DigitRow text) {count : Nat} (inside : count < text.length) :
    DigitRow (text.drop count) where
  nonempty := by
    rw [ne_eq, List.drop_eq_nil_iff]
    omega
  all_digits := fun letter listed => row.all_digits letter (List.mem_of_mem_drop listed)

end DigitRow

theorem isDigit_of_mem_zeros {count : Nat} {letter : Char}
    (listed : letter ∈ List.replicate count '0') : letter.isDigit := by
  rw [List.eq_of_mem_replicate listed]
  rfl

theorem digitRow_zero : DigitRow ['0'] where
  nonempty := List.cons_ne_nil _ _
  all_digits := fun _ listed => by rw [List.mem_singleton.mp listed]; rfl

/-- An optional minus and digits have no other letters. -/
theorem of_mem_signed {sign digits : List Char} (sign_eq : sign = [] ∨ sign = ['-'])
    (all_digits : ∀ letter ∈ digits, letter.isDigit) {letter : Char}
    (listed : letter ∈ sign ++ digits) : letter = '-' ∨ letter.isDigit := by
  rcases List.mem_append.mp listed with signed | digit
  · rcases sign_eq with rfl | rfl
    · cases signed
    · exact .inl (List.mem_singleton.mp signed)
  · exact .inr (all_digits letter digit)

theorem digitRow_toDigits (value : Nat) : DigitRow (Nat.toDigits 10 value) where
  nonempty := Nat.toDigits_ne_nil
  all_digits := fun _ => Nat.isDigit_of_mem_toDigits (by omega) (by omega)

end Numeral

/-- A power of ten in its plainest spelling: a small letter, no sign but a minus, and digits. -/
structure PowerOfTen.Tidy (power : PowerOfTen) : Prop where
  mark_eq : power.mark = 'e'
  sign_eq : power.sign = [] ∨ power.sign = ['-']
  digits_row : Numeral.DigitRow power.digits

namespace Numeral

/-- A numeral in its plainest spelling: no sign but a minus, digits in front of a point and behind
it, and a tidy power of ten. -/
structure Tidy (numeral : Numeral) : Prop where
  sign_eq : numeral.sign = [] ∨ numeral.sign = ['-']
  whole_row : DigitRow numeral.whole
  fraction_row : ∀ digits ∈ numeral.fraction, DigitRow digits
  power_tidy : ∀ power ∈ numeral.power, power.Tidy

/-- The numeral shows that it is no integer: it has a point or an exponent. -/
def IsMarked (numeral : Numeral) : Prop :=
  numeral.fraction.isSome ∨ numeral.power.isSome

/-- A point with the digits behind it, if there is one. -/
def spellFraction : Option (List Char) → List Char
  | some digits => '.' :: digits
  | none => []

/-- The numeral with a minus in front, or with nothing. -/
def withMinus (negative : Bool) (numeral : Numeral) : Numeral :=
  { numeral with sign := if negative then ['-'] else [] }

variable {numeral : Numeral}

theorem mark_mem_spelling (tidy : numeral.Tidy) (marked : numeral.IsMarked) :
    '.' ∈ numeral.spelling ∨ 'e' ∈ numeral.spelling := by
  rcases marked with point | exponent
  · obtain ⟨digits, fraction_eq⟩ := Option.isSome_iff_exists.mp point
    exact .inl (by simp [spelling, fraction_eq])
  · obtain ⟨power, power_eq⟩ := Option.isSome_iff_exists.mp exponent
    have mark_eq := (tidy.power_tidy power power_eq).mark_eq
    exact .inr (by simp [spelling, power_eq, PowerOfTen.spelling, mark_eq])

/-- A tidy numeral starts with a minus or a digit. -/
theorem head_of_tidy (tidy : numeral.Tidy) {letter : Char}
    (first : numeral.spelling.head? = some letter) : letter = '-' ∨ letter.isDigit := by
  obtain ⟨digit, rest, whole_eq⟩ := List.exists_cons_of_ne_nil tidy.whole_row.nonempty
  have isDigit := tidy.whole_row.all_digits digit (by simp [whole_eq])
  rcases tidy.sign_eq with unsigned | minus
  · have digit_eq : digit = letter := by simpa [spelling, unsigned, whole_eq] using first
    exact .inr (digit_eq ▸ isDigit)
  · have minus_eq : '-' = letter := by simpa [spelling, minus] using first
    exact .inl minus_eq.symm

theorem tidy_withMinus (negative : Bool) (tidy : numeral.Tidy) :
    (numeral.withMinus negative).Tidy where
  sign_eq := by cases negative <;> simp [withMinus]
  whole_row := tidy.whole_row
  fraction_row := tidy.fraction_row
  power_tidy := tidy.power_tidy

theorem spelling_withMinus (negative : Bool) (unsigned : numeral.sign = []) :
    (numeral.withMinus negative).spelling =
      if negative then '-' :: numeral.spelling else numeral.spelling := by
  cases negative <;> simp [spelling, withMinus, unsigned]

end Numeral

/-- The tidy power of ten of an exponent. -/
def PowerOfTen.ofExponent : Int → PowerOfTen
  | .ofNat power => ⟨'e', [], Nat.toDigits 10 power⟩
  | .negSucc power => ⟨'e', ['-'], Nat.toDigits 10 (power + 1)⟩

theorem PowerOfTen.tidy_ofExponent (exponent : Int) : (ofExponent exponent).Tidy := by
  cases exponent with
  | ofNat power => exact ⟨rfl, .inl rfl, Numeral.digitRow_toDigits power⟩
  | negSucc power => exact ⟨rfl, .inr rfl, Numeral.digitRow_toDigits (power + 1)⟩

namespace Figures

open Numeral

theorem digitRow_ofDecimal (decimal : Decimal) : DigitRow (ofDecimal decimal).digits := by
  rw [ofDecimal]
  split
  · exact digitRow_zero
  · rename_i kept
    refine ⟨by simpa using kept, fun letter listed => ?_⟩
    have standing := (List.dropWhile_sublist _).mem (List.mem_reverse.mp listed)
    exact (digitRow_toDigits _).all_digits letter (List.mem_reverse.mp standing)

/-- The numeral of the positional spelling. A value without a fraction is given the one in
`whole`, or no point at all. -/
def positionalNumeral (whole : Option (List Char)) (figures : Figures) : Numeral :=
  match figures.leading with
  | .ofNat power =>
      if figures.digits.length ≤ power + 1 then
        ⟨[], figures.digits ++ List.replicate (power + 1 - figures.digits.length) '0', whole, none⟩
      else
        ⟨[], figures.digits.take (power + 1), some (figures.digits.drop (power + 1)), none⟩
  | .negSucc power => ⟨[], ['0'], some (List.replicate power '0' ++ figures.digits), none⟩

/-- The numeral of the spelling with an exponent. -/
def scientificNumeral (figures : Figures) : Numeral where
  sign := []
  whole := figures.digits.take 1
  fraction := if 1 < figures.digits.length then some (figures.digits.drop 1) else none
  power := some (.ofExponent figures.leading)

variable {figures : Figures}

@[simp]
theorem sign_positionalNumeral (whole : Option (List Char)) (figures : Figures) :
    (figures.positionalNumeral whole).sign = [] := by
  rw [positionalNumeral]
  split
  · split <;> rfl
  · rfl

theorem positional_eq_spelling (whole : Option (List Char)) (figures : Figures) :
    figures.positional (spellFraction whole) = (figures.positionalNumeral whole).spelling := by
  rw [positional, positionalNumeral]
  cases figures.leading with
  | ofNat power =>
      dsimp only
      split <;> cases whole <;> simp [spelling, spellFraction]
  | negSucc power => simp [spelling]

theorem tidy_positionalNumeral {whole : Option (List Char)} (row : DigitRow figures.digits)
    (whole_row : ∀ digits ∈ whole, DigitRow digits) : (figures.positionalNumeral whole).Tidy := by
  rw [positionalNumeral]
  cases figures.leading with
  | ofNat power =>
      dsimp only
      split
      · exact ⟨.inl rfl, row.append fun _ => isDigit_of_mem_zeros, whole_row, by simp⟩
      · exact ⟨.inl rfl, row.take (Nat.succ_pos power), by simpa using row.drop (by omega),
          by simp⟩
  | negSucc power =>
      exact ⟨.inl rfl, digitRow_zero, by simpa using row.prepend fun _ => isDigit_of_mem_zeros,
        by simp⟩

theorem isMarked_positionalNumeral (fraction : List Char) (figures : Figures) :
    (figures.positionalNumeral (some fraction)).IsMarked := by
  rw [positionalNumeral]
  split
  · split <;> exact .inl rfl
  · exact .inl rfl

theorem scientific_eq_spelling (figures : Figures) :
    figures.scientific [] = figures.scientificNumeral.spelling := by
  obtain ⟨digits, leading⟩ := figures
  match digits, leading with
  | [], .ofNat _ | [], .negSucc _ | [_], .ofNat _ | [_], .negSucc _ => rfl
  | _ :: _ :: _, .ofNat _ | _ :: _ :: _, .negSucc _ =>
      simp [scientific, scientificNumeral, spelling, PowerOfTen.ofExponent, PowerOfTen.spelling]

theorem tidy_scientificNumeral (row : DigitRow figures.digits) :
    figures.scientificNumeral.Tidy where
  sign_eq := .inl rfl
  whole_row := row.take Nat.one_pos
  fraction_row := by
    intro digits taken
    rw [Option.mem_def, scientificNumeral, Option.ite_none_right_eq_some] at taken
    rw [← Option.some.inj taken.2]
    exact row.drop taken.1
  power_tidy := by simp [scientificNumeral, PowerOfTen.tidy_ofExponent]

end Figures

namespace Literal

open Numeral

/-- Both spellings of figures in the layout of floating-point literals are tidy numerals that have
a point or an exponent. -/
theorem exists_unsigned {figures : Figures} (row : DigitRow figures.digits) :
    ∃ numeral : Numeral, numeral.Tidy ∧ numeral.IsMarked ∧ numeral.sign = [] ∧
      (if layout.isPositional figures.leading then figures.positional layout.whole
        else figures.scientific layout.plus) = numeral.spelling := by
  split
  · refine ⟨figures.positionalNumeral (some ['0']), Figures.tidy_positionalNumeral row ?_,
      figures.isMarked_positionalNumeral ['0'], figures.sign_positionalNumeral _,
      figures.positional_eq_spelling (some ['0'])⟩
    rintro _ ⟨⟩
    exact digitRow_zero
  · exact ⟨figures.scientificNumeral, Figures.tidy_scientificNumeral row, .inr rfl, rfl,
      figures.scientific_eq_spelling⟩

theorem exists_numeral (value : Binary64) :
    ∃ numeral : Numeral, numeral.Tidy ∧ numeral.IsMarked ∧
      layout.write value = numeral.spelling := by
  obtain ⟨numeral, tidy, marked, unsigned, spelling_eq⟩ :=
    exists_unsigned (Figures.digitRow_ofDecimal
      (if value.units = 0 then ⟨0, 0⟩ else value.shortest layout.tie))
  refine ⟨numeral.withMinus value.negative, tidy_withMinus _ tidy, marked, ?_⟩
  rw [Layout.write, spelling_withMinus _ unsigned, ← spelling_eq]

end Literal

end ScriptLowering
