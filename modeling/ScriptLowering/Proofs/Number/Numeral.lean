import ScriptLowering.Proofs.Literal.Integer

/-!
# The longest numeral

A numeral at the start of a text is scanned part by part, and each part takes as many letters as it
can. The parts that are scanned are those of a well-formed numeral that the text behind it does not
extend. Every other well-formed numeral at the start of the text can be extended step by step to
that one, so that scanning finds the longest of them.
-/

namespace ScriptLowering

namespace PowerOfTen

open Numeral

variable {text rest : List Char} {power : PowerOfTen}

/-- A power of ten that is well formed: one of the two letters, an optional sign and digits. -/
structure Valid (power : PowerOfTen) : Prop where
  mark_eq : power.mark = 'e' ∨ power.mark = 'E'
  sign_eq : IsSign power.sign
  digits_row : DigitRow power.digits

theorem Valid.head_digit (valid : power.Valid) : NoSign (power.digits ++ rest) := by
  obtain ⟨digit, digits, digits_eq⟩ := List.exists_cons_of_ne_nil valid.digits_row.nonempty
  have isDigit := valid.digits_row.all_digits digit (by simp [digits_eq])
  rw [digits_eq, List.cons_append]
  exact noSign_of_head (by simpa using isDigit)

theorem scan_spelling (valid : power.Valid) (stops : NoDigit rest) :
    scan (power.spelling ++ rest) = (some power, rest) := by
  obtain ⟨mark, sign, digits⟩ := power
  have split_sign : splitSign (sign ++ digits ++ rest) = (sign, digits ++ rest) := by
    rw [List.append_assoc]
    exact splitSign_append valid.sign_eq fun _ => valid.head_digit
  have split_digits : splitDigits (digits ++ rest) = (digits, rest) :=
    splitDigits_eq_iff.mpr ⟨rfl, valid.digits_row.all_digits, stops⟩
  have some_digit : digits.isEmpty = false := by simpa using valid.digits_row.nonempty
  simp only [spelling, List.cons_append, scan, if_pos valid.mark_eq, split_sign, split_digits,
    some_digit, Bool.false_eq_true, if_false]

theorem scan_cases (text : List Char) :
    (∃ power rest, scan text = (some power, rest) ∧ power.Valid ∧ text = power.spelling ++ rest ∧
      NoDigit rest) ∨ scan text = (none, text) := by
  cases text with
  | nil => exact .inr rfl
  | cons mark behind =>
      by_cases marked : mark = 'e' ∨ mark = 'E'
      · obtain ⟨behind_eq, sign_eq, -⟩ := splitSign_parts behind
        obtain ⟨unsigned_eq, all_digits, stops⟩ := splitDigits_eq_iff.mp
          (Prod.mk.eta (p := splitDigits (splitSign behind).2)).symm
        by_cases none : (splitDigits (splitSign behind).2).1 = []
        · exact .inr (by simp [scan, marked, none])
        · refine .inl ⟨⟨mark, (splitSign behind).1, (splitDigits (splitSign behind).2).1⟩,
            (splitDigits (splitSign behind).2).2, by simp [scan, marked, none],
            ⟨marked, sign_eq, none, all_digits⟩, ?_, stops⟩
          rw [spelling, List.cons_append, List.append_assoc, ← unsigned_eq, ← behind_eq]
      · exact .inr (by simp [scan, marked])

theorem scan_eq_none (absent : ∀ power : PowerOfTen, power.Valid → ¬ power.spelling <+: text) :
    scan text = (none, text) := by
  rcases scan_cases text with ⟨power, rest, -, valid, text_eq, -⟩ | unscanned
  · exact absurd ⟨rest, text_eq.symm⟩ (absent power valid)
  · exact unscanned

end PowerOfTen

namespace Numeral

variable {text rest : List Char} {numeral : Numeral}

/-- A numeral that is well formed: an optional sign, digits on at least one side of an optional
point, and an optional power of ten. -/
structure Valid (numeral : Numeral) : Prop where
  sign_eq : IsSign numeral.sign
  whole_digits : ∀ letter ∈ numeral.whole, letter.isDigit
  fraction_digits : ∀ digits ∈ numeral.fraction, ∀ letter ∈ digits, letter.isDigit
  some_digit : numeral.whole ≠ [] ∨ ∃ digits ∈ numeral.fraction, digits ≠ []
  power_valid : ∀ power ∈ numeral.power, power.Valid

/-- No part of the numeral can take any more of the text behind it. -/
structure Full (numeral : Numeral) (rest : List Char) : Prop where
  no_digit : NoDigit rest
  no_point : numeral.fraction = none → numeral.power = none → rest.head? ≠ some '.'
  no_power : numeral.power = none →
    ∀ power : PowerOfTen, power.Valid → ¬ power.spelling <+: rest

/-- A power of ten, if there is one. -/
def spellPower : Option PowerOfTen → List Char
  | some power => power.spelling
  | none => []

theorem spelling_eq (numeral : Numeral) :
    numeral.spelling = numeral.sign ++ (numeral.whole ++
      (spellFraction numeral.fraction ++ spellPower numeral.power)) := by
  rw [← List.append_assoc, ← List.append_assoc]
  rfl

theorem spelling_append (numeral : Numeral) (rest : List Char) :
    numeral.spelling ++ rest =
      numeral.sign ++ (numeral.whole ++ (spellFraction numeral.fraction ++
        (spellPower numeral.power ++ rest))) := by
  simp only [spelling_eq, List.append_assoc]

theorem noDigit_spellPower (valid : numeral.Valid) (stops : NoDigit rest) :
    NoDigit (spellPower numeral.power ++ rest) := by
  cases power_eq : numeral.power with
  | none => simpa [spellPower, power_eq] using stops
  | some power =>
      have mark_eq := (valid.power_valid power power_eq).mark_eq
      rcases mark_eq with mark_eq | mark_eq <;>
        simp [spellPower, PowerOfTen.spelling, NoDigit, mark_eq]

theorem scanFraction_spelling (valid : numeral.Valid) (full : numeral.Full rest) :
    scanFraction (spellFraction numeral.fraction ++ (spellPower numeral.power ++ rest)) =
      (numeral.fraction, spellPower numeral.power ++ rest) := by
  have stops := noDigit_spellPower valid full.no_digit
  cases fraction_eq : numeral.fraction with
  | some digits =>
      have split_digits : splitDigits (digits ++ (spellPower numeral.power ++ rest)) =
          (digits, spellPower numeral.power ++ rest) :=
        splitDigits_eq_iff.mpr ⟨rfl, valid.fraction_digits digits fraction_eq, stops⟩
      simp only [spellFraction, List.cons_append, scanFraction, split_digits]
  | none =>
      have no_point : (spellPower numeral.power ++ rest).head? ≠ some '.' := by
        cases power_eq : numeral.power with
        | none => simpa [spellPower, power_eq] using full.no_point fraction_eq power_eq
        | some power =>
            have mark_eq := (valid.power_valid power power_eq).mark_eq
            rcases mark_eq with mark_eq | mark_eq <;>
              simp [spellPower, PowerOfTen.spelling, mark_eq]
      rw [spellFraction, List.nil_append, scanFraction]
      intro behind point_eq
      rw [point_eq] at no_point
      exact no_point rfl

theorem scan_spellPower (valid : numeral.Valid) (full : numeral.Full rest) :
    PowerOfTen.scan (spellPower numeral.power ++ rest) = (numeral.power, rest) := by
  cases power_eq : numeral.power with
  | none =>
      rw [spellPower]
      exact PowerOfTen.scan_eq_none (full.no_power power_eq)
  | some power =>
      rw [spellPower]
      exact PowerOfTen.scan_spelling (valid.power_valid power power_eq) full.no_digit

/-- A sign apart, a numeral starts with a digit or a point. -/
theorem head_unsigned (valid : numeral.Valid) (rest : List Char) :
    ∃ letter behind, numeral.whole ++ (spellFraction numeral.fraction ++ rest) =
      letter :: behind ∧ (letter = '.' ∨ letter.isDigit) := by
  cases whole_eq : numeral.whole with
  | cons digit digits =>
      exact ⟨digit, _, rfl, .inr (valid.whole_digits digit (by simp [whole_eq]))⟩
  | nil =>
      obtain ⟨digits, fraction_eq, -⟩ := valid.some_digit.resolve_left (not_not.mpr whole_eq)
      rw [Option.mem_def.mp fraction_eq]
      exact ⟨'.', _, rfl, .inl rfl⟩

theorem noSign_unsigned (valid : numeral.Valid) (rest : List Char) :
    NoSign (numeral.whole ++ (spellFraction numeral.fraction ++ rest)) := by
  obtain ⟨letter, behind, unsigned_eq, rfl | digit⟩ := head_unsigned valid rest
  · simp [unsigned_eq, NoSign]
  · rw [unsigned_eq]
    exact noSign_of_head (by simpa using digit)

/-- A well-formed numeral that is not extended by the text behind it is scanned. -/
theorem scan?_spelling (valid : numeral.Valid) (full : numeral.Full rest) :
    scan? (numeral.spelling ++ rest) = some (numeral, rest) := by
  have split_sign := splitSign_append valid.sign_eq fun _ =>
    noSign_unsigned valid (spellPower numeral.power ++ rest)
  have no_digit :
      NoDigit (spellFraction numeral.fraction ++ (spellPower numeral.power ++ rest)) := by
    cases fraction_eq : numeral.fraction with
    | none => simpa [spellFraction, fraction_eq] using noDigit_spellPower valid full.no_digit
    | some digits => simp [spellFraction, NoDigit]
  have split_digits := splitDigits_eq_iff.mpr ⟨rfl, valid.whole_digits, no_digit⟩
  have some_digit : (numeral.whole.isEmpty && (numeral.fraction.getD []).isEmpty) = false := by
    rcases valid.some_digit with whole | ⟨digits, fraction_eq, fraction⟩
    · simp [whole]
    · simp [Option.mem_def.mp fraction_eq, fraction]
  rw [spelling_append]
  simp only [scan?, split_sign, split_digits, scanFraction_spelling valid full, some_digit,
    scan_spellPower valid full, Bool.false_eq_true, if_false]

theorem scanFraction_parts (text : List Char) :
    text = spellFraction (scanFraction text).1 ++ (scanFraction text).2 ∧
      ∀ digits ∈ (scanFraction text).1, ∀ letter ∈ digits, letter.isDigit := by
  by_cases point : text.head? = some '.'
  · obtain ⟨behind, rfl⟩ := List.head?_eq_some_iff.mp point
    have run_eq : splitDigits behind = ((splitDigits behind).1, (splitDigits behind).2) := rfl
    obtain ⟨behind_eq, all_digits, -⟩ := splitDigits_eq_iff.mp run_eq
    refine ⟨congrArg _ behind_eq, ?_⟩
    rintro digits ⟨⟩
    exact all_digits
  · have unpointed : scanFraction text = (none, text) := by
      rw [scanFraction]
      rintro behind rfl
      exact point rfl
    simp [unpointed, spellFraction]

theorem scan_parts (text : List Char) :
    text = spellPower (PowerOfTen.scan text).1 ++ (PowerOfTen.scan text).2 ∧
      ∀ power ∈ (PowerOfTen.scan text).1, power.Valid := by
  rcases PowerOfTen.scan_cases text with ⟨power, rest, scanned, valid, text_eq, -⟩ | unscanned
  · rw [scanned]
    refine ⟨text_eq, ?_⟩
    rintro _ ⟨⟩
    exact valid
  · rw [unscanned]
    exact ⟨rfl, by simp⟩

/-- What is scanned is a well-formed numeral, and it stands at the start of the text. -/
theorem valid_of_scan? (scanned : scan? text = some (numeral, rest)) :
    numeral.Valid ∧ text = numeral.spelling ++ rest := by
  obtain ⟨text_eq, sign_eq, -⟩ := splitSign_parts text
  obtain ⟨unsigned_eq, whole_digits, -⟩ := splitDigits_eq_iff.mp
    (Prod.mk.eta (p := splitDigits (splitSign text).2)).symm
  obtain ⟨point_eq, fraction_digits⟩ := scanFraction_parts (splitDigits (splitSign text).2).2
  obtain ⟨power_eq, power_valid⟩ :=
    scan_parts (scanFraction (splitDigits (splitSign text).2).2).2
  simp only [scan?] at scanned
  split at scanned
  · cases scanned
  · rename_i some_digit
    obtain ⟨rfl, rfl⟩ := Prod.mk.inj (Option.some.inj scanned)
    refine ⟨⟨sign_eq, whole_digits, fraction_digits, ?_, power_valid⟩, ?_⟩
    · dsimp only
      cases fraction : (scanFraction (splitDigits (splitSign text).2).2).1 <;>
        simpa [fraction, ← not_and_or] using some_digit
    · rw [spelling_append]
      dsimp only
      rw [← power_eq, ← point_eq, ← unsigned_eq, ← text_eq]

/-- The numeral with one more digit at its end. -/
def pushDigit (numeral : Numeral) (digit : Char) : Numeral :=
  match numeral.power, numeral.fraction with
  | some power, _ => { numeral with power := some { power with digits := power.digits ++ [digit] } }
  | none, some digits => { numeral with fraction := some (digits ++ [digit]) }
  | none, none => { numeral with whole := numeral.whole ++ [digit] }

@[simp]
theorem spelling_pushDigit (numeral : Numeral) (digit : Char) :
    (numeral.pushDigit digit).spelling = numeral.spelling ++ [digit] := by
  obtain ⟨sign, whole, fraction, power⟩ := numeral
  cases power <;> cases fraction <;> simp [pushDigit, spelling, PowerOfTen.spelling]

theorem valid_pushDigit (valid : numeral.Valid) {digit : Char} (isDigit : digit.isDigit) :
    (numeral.pushDigit digit).Valid := by
  have one_more {digits : List Char} (all_digits : ∀ letter ∈ digits, letter.isDigit) :
      ∀ letter ∈ digits ++ [digit], letter.isDigit :=
    List.forall_mem_append.mpr ⟨all_digits, by simpa using isDigit⟩
  obtain ⟨sign, whole, fraction, power⟩ := numeral
  obtain ⟨sign_eq, whole_digits, fraction_digits, some_digit, power_valid⟩ := valid
  cases power with
  | some power =>
      obtain ⟨mark_eq, sign_eq', row⟩ := power_valid power rfl
      refine ⟨sign_eq, whole_digits, fraction_digits, some_digit, ?_⟩
      rintro _ ⟨⟩
      exact ⟨mark_eq, sign_eq', row.append (by simpa using isDigit)⟩
  | none =>
      cases fraction with
      | some digits =>
          refine ⟨sign_eq, whole_digits, ?_, .inr ⟨digits ++ [digit], rfl, by simp⟩, power_valid⟩
          rintro _ ⟨⟩
          exact one_more (fraction_digits digits rfl)
      | none =>
          exact ⟨sign_eq, one_more whole_digits, fraction_digits, .inl (by simp [pushDigit]),
            power_valid⟩

/-- A numeral that is not full can take more of the text behind it. -/
theorem exists_longer (valid : numeral.Valid) (extensible : ¬ numeral.Full rest) :
    ∃ (longer : Numeral) (more behind : List Char), longer.Valid ∧ more ≠ [] ∧
      longer.spelling = numeral.spelling ++ more ∧ rest = more ++ behind := by
  by_cases no_digit : NoDigit rest
  · by_cases no_point :
        numeral.fraction = none → numeral.power = none → rest.head? ≠ some '.'
    · have powered : ¬ (numeral.power = none →
          ∀ power : PowerOfTen, power.Valid → ¬ power.spelling <+: rest) :=
        fun no_power => extensible ⟨no_digit, no_point, no_power⟩
      push Not at powered
      obtain ⟨unpowered, power, power_valid, behind, rfl⟩ := powered
      refine ⟨{ numeral with power := some power }, power.spelling, behind, ?_, by
        simp [PowerOfTen.spelling], by simp [spelling, unpowered], rfl⟩
      refine ⟨valid.sign_eq, valid.whole_digits, valid.fraction_digits, valid.some_digit, ?_⟩
      rintro _ ⟨⟩
      exact power_valid
    · push Not at no_point
      obtain ⟨unpointed, unpowered, first⟩ := no_point
      obtain ⟨behind, rfl⟩ := List.head?_eq_some_iff.mp first
      refine ⟨{ numeral with fraction := some [] }, ['.'], behind, ?_, by simp, by
        simp [spelling, unpointed, unpowered], rfl⟩
      refine ⟨valid.sign_eq, valid.whole_digits, ?_, .inl ?_, valid.power_valid⟩
      · rintro _ ⟨⟩
        simp
      · rcases valid.some_digit with whole | ⟨digits, fraction_eq, -⟩
        · exact whole
        · rw [unpointed] at fraction_eq
          cases fraction_eq
  · simp only [NoDigit, not_forall, Bool.not_eq_false] at no_digit
    obtain ⟨digit, first, isDigit⟩ := no_digit
    obtain ⟨behind, rfl⟩ := List.head?_eq_some_iff.mp first
    exact ⟨numeral.pushDigit digit, [digit], behind, valid_pushDigit valid isDigit, by simp,
      spelling_pushDigit numeral digit, rfl⟩

/-- Every numeral at the start of a text can be extended to one that is full. -/
theorem exists_full (valid : numeral.Valid) (rest : List Char) :
    ∃ (longest : Numeral) (more behind : List Char), longest.Valid ∧ longest.Full behind ∧
      longest.spelling = numeral.spelling ++ more ∧ rest = more ++ behind := by
  -- Each step takes at least one character of the rest, so it becomes shorter.
  induction length_eq : rest.length using Nat.strong_induction_on generalizing numeral rest with
  | h length induction =>
      by_cases full : numeral.Full rest
      · exact ⟨numeral, [], rest, valid, full, by simp, rfl⟩
      · obtain ⟨longer, more, behind, longer_valid, some_more, longer_eq, rfl⟩ :=
          exists_longer valid full
        have shorter : behind.length < length := by
          have := List.length_pos_iff.mpr some_more
          rw [← length_eq, List.length_append]
          omega
        obtain ⟨longest, further, last, longest_valid, longest_full, longest_eq, rfl⟩ :=
          induction _ shorter longer_valid behind rfl
        refine ⟨longest, more ++ further, last, longest_valid, longest_full, ?_, ?_⟩
        · rw [longest_eq, longer_eq, List.append_assoc]
        · rw [List.append_assoc]

/-- Scanning finds the longest numeral at the start of a text. -/
theorem exists_scan?_of_valid (valid : numeral.Valid) (rest : List Char) :
    ∃ longest behind, scan? (numeral.spelling ++ rest) = some (longest, behind) ∧
      numeral.spelling <+: longest.spelling := by
  obtain ⟨longest, more, behind, longest_valid, full, longest_eq, rfl⟩ := exists_full valid rest
  refine ⟨longest, behind, ?_, more, longest_eq.symm⟩
  rw [← List.append_assoc, ← longest_eq]
  exact scan?_spelling longest_valid full

/-- Digits with an optional point and further digits, or a point followed by at least one digit. -/
inductive IsMantissa : List Char → Prop where
  | whole {digits : List Char} (row : DigitRow digits) : IsMantissa digits
  | pointed {front behind : List Char} (row : DigitRow front)
      (all_digits : ∀ letter ∈ behind, letter.isDigit) : IsMantissa (front ++ '.' :: behind)
  | fraction {digits : List Char} (row : DigitRow digits) : IsMantissa ('.' :: digits)

/-- The mantissas of floating-point text: digits, digits in front of a point with any behind it, or
digits behind a point with any in front of it. -/
inductive IsFloatMantissa : List Char → Prop where
  | whole {digits : List Char} (row : DigitRow digits) : IsFloatMantissa digits
  | front {front behind : List Char} (row : DigitRow front)
      (all_digits : ∀ letter ∈ behind, letter.isDigit) : IsFloatMantissa (front ++ '.' :: behind)
  | behind {front behind : List Char} (all_digits : ∀ letter ∈ front, letter.isDigit)
      (row : DigitRow behind) : IsFloatMantissa (front ++ '.' :: behind)

/-- One of two letters, an optional sign and at least one digit, or nothing. -/
inductive IsExponent : List Char → Prop where
  | absent : IsExponent []
  | present {mark : Char} {sign digits : List Char} (mark_eq : mark = 'e' ∨ mark = 'E')
      (sign_eq : IsSign sign) (row : DigitRow digits) : IsExponent (mark :: (sign ++ digits))

/-- An optional sign, a mantissa of the given kind and an optional exponent. -/
def IsScaled (mantissa : List Char → Prop) (text : List Char) : Prop :=
  ∃ sign body exponent, IsSign sign ∧ mantissa body ∧ IsExponent exponent ∧
    text = sign ++ (body ++ exponent)

/-- The texts that are numerals. -/
def IsNumeric : List Char → Prop := IsScaled IsMantissa

/-- The texts that are floating-point numbers. -/
def IsFloatText : List Char → Prop := IsScaled IsFloatMantissa

theorem isMantissa_iff {body : List Char} :
    IsMantissa body ↔ ∃ whole fraction, (∀ letter ∈ whole, letter.isDigit) ∧
      (∀ digits ∈ fraction, ∀ letter ∈ digits, letter.isDigit) ∧
      (whole ≠ [] ∨ ∃ digits ∈ fraction, digits ≠ []) ∧ body = whole ++ spellFraction fraction := by
  constructor
  · rintro (row | @⟨front, behind, row, all_digits⟩ | @⟨digits, row⟩)
    · exact ⟨body, none, row.all_digits, by simp, .inl row.nonempty, by simp [spellFraction]⟩
    · exact ⟨front, some behind, row.all_digits, by simpa using all_digits, .inl row.nonempty, rfl⟩
    · exact ⟨[], some digits, by simp, by simpa using row.all_digits,
        .inr ⟨digits, rfl, row.nonempty⟩, rfl⟩
  · rintro ⟨whole, fraction, whole_digits, fraction_digits, some_digit, rfl⟩
    by_cases nonempty : whole = []
    · obtain ⟨digits, rfl, digits_nonempty⟩ := some_digit.resolve_left (not_not.mpr nonempty)
      rw [nonempty]
      exact .fraction ⟨digits_nonempty, fraction_digits digits rfl⟩
    · cases fraction with
      | none =>
          rw [spellFraction, List.append_nil]
          exact .whole ⟨nonempty, whole_digits⟩
      | some digits => exact .pointed ⟨nonempty, whole_digits⟩ (fraction_digits digits rfl)

theorem isExponent_iff {text : List Char} :
    IsExponent text ↔
      ∃ power : Option PowerOfTen,
        (∀ present ∈ power, present.Valid) ∧ text = spellPower power := by
  constructor
  · rintro (_ | @⟨mark, sign, digits, mark_eq, sign_eq, row⟩)
    · exact ⟨none, by simp, rfl⟩
    · refine ⟨some ⟨mark, sign, digits⟩, ?_, rfl⟩
      rintro _ ⟨⟩
      exact ⟨mark_eq, sign_eq, row⟩
  · rintro ⟨power, valid, rfl⟩
    cases power with
    | none => exact .absent
    | some power =>
        obtain ⟨mark_eq, sign_eq, row⟩ := valid power rfl
        exact .present mark_eq sign_eq row

/-- The texts that are numerals are the spellings of the well-formed ones. -/
theorem isNumeric_iff :
    IsNumeric text ↔ ∃ numeral : Numeral, numeral.Valid ∧ numeral.spelling = text := by
  constructor
  · rintro ⟨sign, body, exponent, sign_eq, mantissa, exponential, rfl⟩
    obtain ⟨whole, fraction, whole_digits, fraction_digits, some_digit, rfl⟩ :=
      isMantissa_iff.mp mantissa
    obtain ⟨power, power_valid, rfl⟩ := isExponent_iff.mp exponential
    refine ⟨⟨sign, whole, fraction, power⟩,
      ⟨sign_eq, whole_digits, fraction_digits, some_digit, power_valid⟩, ?_⟩
    rw [spelling_eq, List.append_assoc]
  · rintro ⟨numeral, valid, rfl⟩
    refine ⟨numeral.sign, _, _, valid.sign_eq, isMantissa_iff.mpr ⟨numeral.whole, numeral.fraction,
      valid.whole_digits, valid.fraction_digits, valid.some_digit, rfl⟩,
      isExponent_iff.mpr ⟨numeral.power, valid.power_valid, rfl⟩, ?_⟩
    rw [spelling_eq, List.append_assoc]

theorem isFloatMantissa_iff {body : List Char} : IsFloatMantissa body ↔ IsMantissa body := by
  constructor
  · rintro (row | ⟨row, all_digits⟩ | @⟨front, behind, all_digits, row⟩)
    · exact .whole row
    · exact .pointed row all_digits
    · by_cases nonempty : front = []
      · rw [nonempty]
        exact .fraction row
      · exact .pointed ⟨nonempty, all_digits⟩ row.all_digits
  · rintro (row | ⟨row, all_digits⟩ | row)
    · exact .whole row
    · exact .front row all_digits
    · exact @IsFloatMantissa.behind [] _ (by simp) row

theorem isFloatText_iff : IsFloatText text ↔ IsNumeric text := by
  simp only [IsFloatText, IsNumeric, IsScaled, isFloatMantissa_iff]

/-- A numeral by itself is scanned as a whole. -/
theorem scan?_of_valid (valid : numeral.Valid) :
    scan? numeral.spelling = some (numeral, []) := by
  have full : numeral.Full [] := by
    refine ⟨by simp [NoDigit], by simp, ?_⟩
    rintro - power - ⟨behind, spelled⟩
    simp [PowerOfTen.spelling] at spelled
  have scanned := scan?_spelling valid full
  rwa [List.append_nil] at scanned

theorem toLower_eq_self {letter : Char} (plain : letter = '.' ∨ letter.isDigit) :
    letter.toLower = letter := by
  rcases plain with rfl | digit
  · rfl
  · obtain ⟨value, small, rfl⟩ := isDigit_iff.mp digit
    have unchanged : ∀ value < 10, (Nat.digitChar value).toLower = Nat.digitChar value := by decide
    exact unchanged value small

/-- A numeral is none of the words for infinities and non-numbers, so that it is read as itself. -/
theorem ofText?_spelling (valid : numeral.Valid) :
    Binary64.ofText? numeral.spelling = some numeral.toBinary64 := by
  obtain ⟨letter, behind, unsigned_eq, plain⟩ :=
    head_unsigned valid (spellPower numeral.power)
  have split_sign := splitSign_append valid.sign_eq
    (fun _ => noSign_unsigned valid (spellPower numeral.power))
  rw [← spelling_eq, unsigned_eq] at split_sign
  have no_word {first : Char} {word : List Char} (unlike : letter ≠ first) :
      String.ofList (Binary64.lowerCase (letter :: behind)) ≠ String.ofList (first :: word) := by
    intro same
    have letters := congrArg String.toList same
    rw [String.toList_ofList, String.toList_ofList, Binary64.lowerCase, List.map_cons,
      toLower_eq_self plain] at letters
    exact unlike (List.cons.inj letters).1
  have not_i : letter ≠ 'i' := by
    rintro rfl
    simp at plain
  have not_n : letter ≠ 'n' := by
    rintro rfl
    simp at plain
  have no_infinity : ¬ (String.ofList (Binary64.lowerCase (letter :: behind)) = "inf" ∨
      String.ofList (Binary64.lowerCase (letter :: behind)) = "infinity") :=
    not_or.mpr ⟨no_word not_i, no_word not_i⟩
  have no_nan : String.ofList (Binary64.lowerCase (letter :: behind)) ≠ "nan" := no_word not_n
  simp only [Binary64.ofText?, split_sign, if_neg no_infinity, if_neg no_nan,
    scan?_of_valid valid]

end Numeral

end ScriptLowering
