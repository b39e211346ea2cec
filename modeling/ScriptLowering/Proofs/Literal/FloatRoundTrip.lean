import ScriptLowering.Proofs.Number.Numeral
import ScriptLowering.Proofs.Number.Rounding
import ScriptLowering.Proofs.Literal.Spelling

/-!
# Floating-point constants

The payload of a finite number is its shortest decimal, written out positionally, and reading it
gives the number back: the zeros that are cut off and put in again change nothing but the power of
ten. The payloads of the other numbers are words, in which no numeral is found, so that all of them
are read as zero.
-/

namespace ScriptLowering

namespace Binary64

/-- The number if it is finite, and otherwise zero. -/
def orZero (x : Binary64) : Binary64 :=
  if x.isFinite then x else zero false

/-- Two numbers are the same, or neither is a number. -/
def Agrees (x y : Binary64) : Prop :=
  x = y ∨ ¬ x.IsNumber ∧ ¬ y.IsNumber

/-- The three fields hold every bit of the pattern. -/
@[simp]
theorem toBits_ofBits (bits : UInt64) : (ofBits bits).toBits = bits := by
  have bits_lt := bits.toNat_lt
  have pattern_eq : (if (ofBits bits).negative then signWeight else 0) + (ofBits bits).magnitude =
      bits.toNat := by
    simp only [ofBits, magnitude, decide_eq_true_eq]
    rw [fractions, signWeight]
    split <;> omega
  rw [toBits, pattern_eq, UInt64.ofNat_toNat]

theorem agrees_orZero_iff {x : Binary64} : x.orZero.Agrees x ↔ x.isFinite := by
  rw [orZero]
  split
  · rename_i finite
    exact ⟨fun _ => finite, fun _ => .inl rfl⟩
  · rename_i infinite
    refine ⟨?_, fun finite => absurd finite infinite⟩
    rintro (rfl | ⟨no_number, -⟩)
    · rfl
    · exact absurd (.inl rfl) no_number

end Binary64

namespace Numeral

@[simp]
theorem natOfDigits_append_zeros (digits : List Char) (count : Nat) :
    natOfDigits (digits ++ List.replicate count '0') = natOfDigits digits * 10 ^ count := by
  induction count with
  | zero => simp
  | succ count induction =>
      have zero_eq : digitValue '0' = 0 := rfl
      rw [List.replicate_succ', ← List.append_assoc, natOfDigits_append, induction, zero_eq]
      ring

@[simp]
theorem natOfDigits_zeros_append (count : Nat) (digits : List Char) :
    natOfDigits (List.replicate count '0' ++ digits) = natOfDigits digits := by
  have zeros_eq : natOfDigits (List.replicate count '0') = 0 := by
    simpa [natOfDigits] using natOfDigits_append_zeros [] count
  rw [natOfDigits] at zeros_eq
  rw [natOfDigits, List.foldl_append, zeros_eq]
  rfl

@[simp]
theorem natOfDigits_toDigits (value : Nat) : natOfDigits (Nat.toDigits 10 value) = value := by
  simp [natOfDigits_eq_positionalValue]

variable {numeral : Numeral}

theorem Tidy.valid (tidy : numeral.Tidy) : numeral.Valid where
  sign_eq := tidy.sign_eq.imp_right .inl
  whole_digits := tidy.whole_row.all_digits
  fraction_digits := fun digits written => (tidy.fraction_row digits written).all_digits
  some_digit := .inl tidy.whole_row.nonempty
  power_valid := by
    intro power written
    obtain ⟨mark_eq, sign_eq, digits_row⟩ := tidy.power_tidy power written
    exact ⟨.inl mark_eq, sign_eq.imp_right .inl, digits_row⟩

end Numeral

namespace Figures

open Numeral

/-- The number nearest to the figures, with a sign. -/
def toBinary64 (negative : Bool) (figures : Figures) : Binary64 :=
  .ofDecimal negative (natOfDigits figures.digits) (figures.leading + 1 - figures.digits.length)

/-- A text is what remains without the zeros at its end, followed by as many zeros. -/
theorem exists_zeros (text : List Char) :
    ∃ count, (text.reverse.dropWhile (· == '0')).reverse ++ List.replicate count '0' = text := by
  refine ⟨(text.reverse.takeWhile (· == '0')).length, ?_⟩
  have zeros_eq : text.reverse.takeWhile (· == '0') =
      List.replicate (text.reverse.takeWhile (· == '0')).length '0' := by
    rw [List.eq_replicate_iff]
    refine ⟨rfl, fun letter listed => ?_⟩
    simpa using List.mem_takeWhile_imp listed
  rw [← List.reverse_replicate, ← zeros_eq, ← List.reverse_append,
    List.takeWhile_append_dropWhile, List.reverse_reverse]

/-- The figures of a decimal other than zero stand for it, with a larger power of ten in place of
the zeros at the end. -/
theorem exists_places (decimal : Decimal) :
    ∃ places : Nat, natOfDigits (ofDecimal decimal).digits * 10 ^ places = decimal.digits ∧
      (decimal.digits ≠ 0 → (ofDecimal decimal).leading + 1 - (ofDecimal decimal).digits.length =
        decimal.exponent + places) := by
  obtain ⟨count, digits_eq⟩ := exists_zeros (Nat.toDigits 10 decimal.digits)
  have value_eq := congrArg natOfDigits digits_eq
  rw [natOfDigits_toDigits, natOfDigits_append_zeros] at value_eq
  have length_eq := congrArg List.length digits_eq
  rw [List.length_append, List.length_replicate] at length_eq
  refine ⟨count, ?_⟩
  rw [ofDecimal]
  split
  · rename_i empty
    rw [List.isEmpty_iff.mp empty, natOfDigits, List.foldl_nil, Nat.zero_mul] at value_eq
    exact ⟨value_eq ▸ Nat.zero_mul _, fun digits_ne => absurd value_eq.symm digits_ne⟩
  · refine ⟨value_eq, fun _ => ?_⟩
    dsimp only
    omega

@[simp]
theorem toBinary64_ofDecimal (negative : Bool) (decimal : Decimal) :
    (ofDecimal decimal).toBinary64 negative =
      .ofDecimal negative decimal.digits decimal.exponent := by
  obtain ⟨places, value_eq, power_eq⟩ := exists_places decimal
  by_cases digits_eq : decimal.digits = 0
  · have no_value : natOfDigits (ofDecimal decimal).digits = 0 := by
      simpa [digits_eq] using value_eq
    simp [toBinary64, no_value, digits_eq]
  · rw [toBinary64, power_eq digits_eq, ← Binary64.ofDecimal_scale, value_eq]

/-- The positional spelling has the value of the figures: the zeros that fill it up to the point
count as a power of ten, and those behind the point as nothing. -/
@[simp]
theorem toBinary64_positionalNumeral (negative : Bool) (figures : Figures) :
    ((figures.positionalNumeral none).withMinus negative).toBinary64 =
      figures.toBinary64 negative := by
  have sign_eq : ((if negative then ['-'] else []) == ['-']) = negative := by
    cases negative <;> rfl
  rw [Numeral.toBinary64, withMinus, toBinary64, positionalNumeral]
  cases figures.leading with
  | ofNat power =>
      by_cases short : figures.digits.length ≤ power + 1
      · have power_eq : Int.ofNat power + 1 - figures.digits.length =
            0 + ((power + 1 - figures.digits.length : Nat) : Int) := by
          rw [Int.ofNat_eq_natCast]
          omega
        rw [power_eq, ← Binary64.ofDecimal_scale, ← natOfDigits_append_zeros]
        simp [short, sign_eq]
      · have power_eq : Int.ofNat power + 1 - figures.digits.length =
            0 - ((figures.digits.drop (power + 1)).length : Int) := by
          rw [Int.ofNat_eq_natCast, List.length_drop]
          omega
        rw [power_eq]
        simp [short, sign_eq]
  | negSucc power =>
      have digits_eq : natOfDigits (['0'] ++ (List.replicate power '0' ++ figures.digits)) =
          natOfDigits figures.digits := natOfDigits_zeros_append (power + 1) figures.digits
      have power_eq : Int.negSucc power + 1 - figures.digits.length =
          0 - ((List.replicate power '0' ++ figures.digits).length : Int) := by
        rw [List.length_append, List.length_replicate]
        omega
      rw [power_eq, ← digits_eq]
      simp [sign_eq]

end Figures

namespace Payload

open Numeral

variable {numeral : Numeral} {x : Binary64}

theorem readFloat_spelling (tidy : numeral.Tidy) :
    readFloat numeral.spelling = numeral.toBinary64 := by
  have trimmed : Blank.trimStart numeral.spelling = numeral.spelling := by
    cases spelling_eq : numeral.spelling with
    | nil => rfl
    | cons letter rest =>
        have no_blank : Blank.isBlank letter = false := by
          rcases head_of_tidy tidy (by rw [spelling_eq]; rfl) with rfl | digit
          · rfl
          · exact isBlank_of_isDigit digit
        rw [Blank.trimStart, List.dropWhile_cons, no_blank]
        rfl
  rw [readFloat, trimmed, scan?_of_valid tidy.valid]

/-- The payload of a finite number is read as the number. -/
theorem readFloat_write (finite : x.isFinite) : readFloat (layout.write x) = x := by
  have row := Figures.digitRow_ofDecimal (x.decimal layout.tie)
  have tidy : ((Figures.ofDecimal (x.decimal layout.tie)).positionalNumeral none).Tidy :=
    Figures.tidy_positionalNumeral row (by simp)
  have write_eq : layout.write x =
      (((Figures.ofDecimal (x.decimal layout.tie)).positionalNumeral none).withMinus
        x.negative).spelling := by
    rw [spelling_withMinus _ (Figures.sign_positionalNumeral _ _),
      ← Figures.positional_eq_spelling]
    rfl
  rw [write_eq, readFloat_spelling (tidy_withMinus _ tidy)]
  simp [Binary64.ofDecimal_decimal _ finite]

/-- The words for infinities and non-numbers start with no numeral. -/
theorem readFloat_of_not_finite (infinite : ¬ x.isFinite) :
    readFloat (ofFloat x).toList = .zero false := by
  rw [ofFloat, if_neg infinite]
  split
  · split <;> rfl
  · rfl

/-- A number comes back from its own payload if it is finite, and zero in place of any other. -/
theorem readFloat_ofFloat (x : Binary64) : readFloat (ofFloat x).toList = x.orZero := by
  rw [Binary64.orZero]
  split
  · rename_i finite
    rw [ofFloat, if_pos finite, String.toList_ofList, readFloat_write finite]
  · rename_i infinite
    exact readFloat_of_not_finite infinite

end Payload

namespace Literal

open Binary64

variable {x : Binary64}

theorem ofConst_ofFloat (x : Binary64) :
    ofConst .double (Payload.ofFloat x) = .ok (.float x.orZero) := by
  rw [ofConst, Payload.readFloat_ofFloat]

theorem render_orZero_iff : render (.float x.orZero) = render (.float x) ↔ x.isFinite := by
  rw [orZero]
  split
  · rename_i finite
    exact ⟨fun _ => finite, fun _ => rfl⟩
  · rename_i infinite
    refine ⟨fun same => ?_, fun finite => absurd finite infinite⟩
    have zero_eq : render (.float (zero false)) = "0.0" := by decide +kernel
    rw [zero_eq, render, renderFloat, if_neg infinite] at same
    split at same
    · split at same <;> simp at same
    · simp at same

theorem lower_double (x : Binary64) {compiler : Compiler} {name : String}
    (uncached : compiler.cache.get? name = none) :
    (compiler.lower ((Draft.built [.double x, .ret (some (.ofWord 0))]).toCallable name [])).1 =
      .ok (Script.function name [] ("return " ++ render (.float x.orZero) ++ ";\n")) := by
  have callable_eq : (Draft.built [.double x, .ret (some (.ofWord 0))]).toCallable name [] =
      .returning name (.ofWord 0) .double (Payload.ofFloat x) := rfl
  rw [callable_eq, Compiler.lower_of_uncached uncached, Compiler.remember_fst,
    Callable.lower_returning (ofConst_ofFloat x)]

/-- A floating-point constant that the builder makes keeps its value exactly if it is finite, and
then it keeps every bit. An infinity or a non-number has a word for its payload, and zero is read
and lowered in its place, although there is a spelling for it. -/
theorem finite_doubles_come_back (bits : UInt64) :
    (ofBits bits).toBits = bits ∧
    (∀ draft : Draft, ∃ result, (draft.build (.double (ofBits bits))).2.instrs =
      draft.instrs.push (.const result .double (Payload.ofFloat (ofBits bits)))) ∧
    ofConst .double (Payload.ofFloat (ofBits bits)) = .ok (.float (ofBits bits).orZero) ∧
    ((ofBits bits).orZero.Agrees (ofBits bits) ↔ (ofBits bits).isFinite) ∧
    ∀ (compiler : Compiler) (name : String), compiler.cache.get? name = none →
      (compiler.lower ((Draft.built [.double (ofBits bits),
          .ret (some (.ofWord 0))]).toCallable name [])).1 =
        .ok (Script.function name []
          ("return " ++ render (.float (ofBits bits).orZero) ++ ";\n")) ∧
      (render (.float (ofBits bits).orZero) = render (.float (ofBits bits)) ↔
        (ofBits bits).isFinite) := by
  refine ⟨toBits_ofBits bits, ?_, ofConst_ofFloat _, agrees_orZero_iff, ?_⟩
  · intro draft
    exact ⟨_, rfl⟩
  · intro compiler name uncached
    exact ⟨lower_double _ uncached, render_orZero_iff⟩

/-- The greatest number below zero, whose payload has more than three hundred digits. -/
theorem least_double_comes_back :
    (ofBits 0x8000000000000001).isFinite ∧ (ofBits 0x8000000000000001).units = 1 ∧
      ofConst .double (Payload.ofFloat (ofBits 0x8000000000000001)) =
        .ok (.float (ofBits 0x8000000000000001)) ∧
      (({} : Compiler).lower ((Draft.built [.double (ofBits 0x8000000000000001),
          .ret (some (.ofWord 0))]).toCallable "f" [])).1 =
        .ok ("function f() " ++ Script.braced "\nreturn -5e-324;\n") := by
  obtain ⟨-, -, read, -, lowers⟩ := finite_doubles_come_back 0x8000000000000001
  have spelled : render (.float (ofBits 0x8000000000000001).orZero) = "-5e-324" := by
    decide +kernel
  have lowered := (lowers {} "f" rfl).1
  rw [spelled] at lowered
  exact ⟨rfl, rfl, read, lowered⟩

/-- Infinity is lowered as zero. -/
theorem infinity_does_not_come_back :
    Payload.ofFloat (infinity false) = "inf" ∧ render (.float (infinity false)) = "INF" ∧
      ofConst .double (Payload.ofFloat (infinity false)) = .ok (.float (zero false)) ∧
      (({} : Compiler).lower ((Draft.built [.double (infinity false),
          .ret (some (.ofWord 0))]).toCallable "f" [])).1 =
        .ok ("function f() " ++ Script.braced "\nreturn 0.0;\n") := by
  have spelled : render (.float (infinity false).orZero) = "0.0" := by decide +kernel
  have lowered := @lower_double (infinity false) {} "f" rfl
  rw [spelled] at lowered
  exact ⟨rfl, rfl, ofConst_ofFloat _, lowered⟩

end Literal

end ScriptLowering
