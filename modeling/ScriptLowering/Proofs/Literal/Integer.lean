import ScriptLowering.Proofs.Draft.Building
import ScriptLowering.Proofs.Number.Layout
import Mathlib.Data.Nat.Digits.Defs

/-!
# The payloads of integers

An integer is read from the front of its payload: white space, a sign and a run of digits, whatever
follows them. The run may have any length, and what is read is the number that it stands for,
brought into the range of 64 bits with a sign. The central theorem says so for all payloads, and
also that the digits can be added up in words of 64 bits without any overflow, and that every word
comes back from its own decimal text.
-/

namespace ScriptLowering

namespace Numeral

/-- The number that a run of digits stands for: the last digit counts ones, the one in front of it
tens, and so on. -/
def positionalValue (digits : List Char) : Nat :=
  Nat.ofDigits 10 (digits.reverse.map digitValue)

variable {digits : List Char}

theorem digitValue_lt {letter : Char} (digit : letter.isDigit) : digitValue letter < 10 := by
  obtain ⟨value, small, rfl⟩ := isDigit_iff.mp digit
  rwa [digitValue_digitChar small]

theorem natOfDigits_eq_positionalValue (digits : List Char) :
    natOfDigits digits = positionalValue digits := by
  induction digits using List.reverseRecOn with
  | nil => rfl
  | append_singleton front last induction =>
      rw [natOfDigits_append, induction, positionalValue, positionalValue, List.reverse_concat,
        List.map_cons, Nat.ofDigits_cons, Nat.add_comm]

/-- Stopping at a limit on the way makes no difference to stopping there at the end. -/
theorem saturatingNatOfDigits_eq_min (limit : Nat) (digits : List Char) :
    saturatingNatOfDigits limit digits = min limit (natOfDigits digits) := by
  induction digits using List.reverseRecOn with
  | nil => simp [saturatingNatOfDigits, natOfDigits]
  | append_singleton front last induction =>
      have step : saturatingNatOfDigits limit (front ++ [last]) =
          min limit (10 * saturatingNatOfDigits limit front + digitValue last) := by
        simp [saturatingNatOfDigits, Nat.min_def]
      rw [step, induction, natOfDigits_append]
      omega

/-- A sign, or nothing. -/
def IsSign (sign : List Char) : Prop :=
  sign = [] ∨ sign = ['-'] ∨ sign = ['+']

/-- No digit stands at the start of the text. -/
def NoDigit (text : List Char) : Prop :=
  ∀ letter ∈ text.head?, letter.isDigit = false

/-- No sign stands at the start of the text. -/
def NoSign (text : List Char) : Prop :=
  ∀ letter ∈ text.head?, letter ≠ '-' ∧ letter ≠ '+'

variable {text sign rest : List Char}

theorem noSign_of_head (digit : ∀ letter ∈ text.head?, letter.isDigit) : NoSign text := by
  intro letter first
  have isDigit := digit letter first
  constructor <;> rintro rfl <;> cases isDigit

theorem splitSign_append (sign_eq : IsSign sign) (no_other : sign = [] → NoSign rest) :
    splitSign (sign ++ rest) = (sign, rest) := by
  rcases sign_eq with rfl | rfl | rfl
  · cases rest with
    | nil => rfl
    | cons letter rest =>
        obtain ⟨no_minus, no_plus⟩ := no_other rfl letter rfl
        rw [List.nil_append, splitSign]
        · exact fun _ minus => absurd (List.cons.inj minus).1 no_minus
        · exact fun _ plus => absurd (List.cons.inj plus).1 no_plus
  · rfl
  · rfl

/-- Every text has a sign, which may be nothing, in front. -/
theorem splitSign_parts (text : List Char) :
    text = (splitSign text).1 ++ (splitSign text).2 ∧ IsSign (splitSign text).1 ∧
      ((splitSign text).1 = [] → NoSign (splitSign text).2) := by
  cases text with
  | nil => exact ⟨rfl, .inl rfl, by simp [splitSign, NoSign]⟩
  | cons letter rest =>
      by_cases minus : letter = '-'
      · subst minus
        exact ⟨rfl, .inr (.inl rfl), by simp [splitSign]⟩
      · by_cases plus : letter = '+'
        · subst plus
          exact ⟨rfl, .inr (.inr rfl), by simp [splitSign]⟩
        · have unsigned : NoSign (letter :: rest) := by simp [NoSign, minus, plus]
          have split_eq := splitSign_append (.inl rfl) fun _ => unsigned
          rw [List.nil_append] at split_eq
          rw [split_eq]
          exact ⟨rfl, .inl rfl, fun _ => unsigned⟩

theorem splitDigits_eq_iff :
    splitDigits text = (digits, rest) ↔
      text = digits ++ rest ∧ (∀ letter ∈ digits, letter.isDigit) ∧ NoDigit rest := by
  rw [splitDigits, Prod.mk.injEq]
  constructor
  · rintro ⟨rfl, rfl⟩
    refine ⟨List.takeWhile_append_dropWhile.symm, fun _ => List.mem_takeWhile_imp, ?_⟩
    intro letter first
    have stops := List.head?_dropWhile_not Char.isDigit text
    rwa [first] at stops
  · rintro ⟨rfl, all_digits, stops⟩
    rw [List.takeWhile_append_of_pos all_digits, List.dropWhile_append_of_pos all_digits]
    cases rest with
    | nil => simp
    | cons letter behind => simp [stops letter rfl]

end Numeral

namespace Payload

/-- A text as white space, a sign, a run of digits and a rest, where each of the first three takes
as much of the text as it can. -/
structure Front (text : List Char) where
  /-- The white space. -/
  blanks : List Char
  /-- The sign, if there is one. -/
  sign : List Char
  /-- The digits, if there are any. -/
  digits : List Char
  /-- What follows the digits. -/
  rest : List Char
  text_eq : text = blanks ++ (sign ++ (digits ++ rest))
  blanks_blank : ∀ letter ∈ blanks, Blank.isBlank letter
  no_more_blank : ∀ letter ∈ (sign ++ (digits ++ rest)).head?, Blank.isBlank letter = false
  sign_eq : Numeral.IsSign sign
  no_other_sign : sign = [] → Numeral.NoSign (digits ++ rest)
  digits_digit : ∀ letter ∈ digits, letter.isDigit
  no_more_digit : Numeral.NoDigit rest

namespace Front

variable {text : List Char}

/-- The number that the sign and the digits stand for. Without digits it is zero. -/
def value (front : Front text) : Int :=
  if front.sign = ['-'] then -(Numeral.positionalValue front.digits : Int)
  else Numeral.positionalValue front.digits

theorem trimStart_eq (front : Front text) :
    Blank.trimStart text = front.sign ++ (front.digits ++ front.rest) := by
  have start := front.no_more_blank
  nth_rewrite 1 [front.text_eq]
  rw [Blank.trimStart, List.dropWhile_append_of_pos front.blanks_blank]
  cases text_eq : front.sign ++ (front.digits ++ front.rest) with
  | nil => rfl
  | cons letter rest =>
      rw [text_eq] at start
      rw [List.dropWhile_cons, start letter rfl]
      rfl

theorem takeWhile_eq (front : Front text) :
    (front.digits ++ front.rest).takeWhile Char.isDigit = front.digits :=
  congrArg Prod.fst
    (Numeral.splitDigits_eq_iff.mpr ⟨rfl, front.digits_digit, front.no_more_digit⟩)

/-- Every text has a front. -/
theorem nonempty (text : List Char) : Nonempty (Front text) := by
  obtain ⟨trimmed_eq, sign_eq, no_other_sign⟩ := Numeral.splitSign_parts (Blank.trimStart text)
  generalize (Numeral.splitSign (Blank.trimStart text)).1 = sign at trimmed_eq sign_eq no_other_sign
  generalize (Numeral.splitSign (Blank.trimStart text)).2 = unsigned at trimmed_eq no_other_sign
  have digits_split : Numeral.splitDigits unsigned = (_, _) := rfl
  obtain ⟨unsigned_eq, digits_digit, no_more_digit⟩ := Numeral.splitDigits_eq_iff.mp digits_split
  exact ⟨{
    blanks := text.takeWhile Blank.isBlank
    sign
    digits := unsigned.takeWhile Char.isDigit
    rest := unsigned.dropWhile Char.isDigit
    text_eq := by
      rw [← unsigned_eq, ← trimmed_eq]
      exact List.takeWhile_append_dropWhile.symm
    blanks_blank := fun letter listed => List.mem_takeWhile_imp listed
    no_more_blank := by
      rw [← unsigned_eq, ← trimmed_eq, Blank.trimStart]
      intro letter first
      have stops := List.head?_dropWhile_not Blank.isBlank text
      rwa [first] at stops
    sign_eq
    no_other_sign := by rwa [← unsigned_eq]
    digits_digit
    no_more_digit }⟩

end Front

/-- An integer brought into the range of 64 bits with a sign. -/
def clamp (value : Int) : Int :=
  max (-2 ^ 63) (min (2 ^ 63 - 1) value)

theorem readInt_eq_clamp {text : List Char} (front : Front text) :
    readInt text = clamp front.value := by
  rw [readInt, front.trimStart_eq, Numeral.splitSign_append front.sign_eq front.no_other_sign]
  dsimp only
  rw [front.takeWhile_eq, Numeral.saturatingNatOfDigits_eq_min,
    Numeral.saturatingNatOfDigits_eq_min, Numeral.natOfDigits_eq_positionalValue, clamp,
    Front.value, greatestInt]
  split <;> omega

end Payload

/-! ## Words of 64 bits -/

namespace Numeral

/-- The product of two words, unless it does not fit into a word. -/
def mulWords? (left right : Int64) : Option Int64 :=
  if left.toBitVec.smulOverflow right.toBitVec then none else some (left * right)

/-- The sum of two words, unless it does not fit into a word. -/
def addWords? (left right : Int64) : Option Int64 :=
  if left.toBitVec.saddOverflow right.toBitVec then none else some (left + right)

/-- The word with one more digit behind it, unless one of the two operations overflows. -/
def appendDigit? (word : Int64) (digit : Char) : Option Int64 := do
  addWords? (← mulWords? word 10) (Int64.ofNat (digitValue digit))

/-- The word that a run of digits spells, unless some operation on the way overflows. -/
def wordOfDigits? (digits : List Char) : Option Int64 :=
  digits.foldlM appendDigit? 0

variable {left right word : Int64} {digits : List Char}

/-- An operation that is given up only beyond the range of words, and is exact otherwise, gives the
word of the exact result whenever there is one. -/
theorem checked_eq_some {overflows : Bool} {outcome word : Int64} {exact : Int}
    (beyond : overflows → 2 ^ 63 ≤ exact ∨ exact < -2 ^ 63)
    (within : ¬ overflows → outcome.toInt = exact) :
    (if overflows then none else some outcome) = some word ↔ word.toInt = exact := by
  have := word.le_toInt
  have := word.toInt_lt
  cases overflows with
  | true =>
      have := beyond rfl
      simp only [if_true, reduceCtorEq, false_iff]
      omega
  | false =>
      rw [if_neg Bool.false_ne_true, Option.some.injEq, ← Int64.toInt_inj,
        within Bool.false_ne_true, eq_comm]

theorem mulWords?_eq_some :
    mulWords? left right = some word ↔ word.toInt = left.toInt * right.toInt := by
  apply checked_eq_some
  · simp [BitVec.smulOverflow]
  · exact BitVec.toInt_mul_of_not_smulOverflow

theorem addWords?_eq_some :
    addWords? left right = some word ↔ word.toInt = left.toInt + right.toInt := by
  apply checked_eq_some
  · simp [BitVec.saddOverflow]
  · exact BitVec.toInt_add_of_not_saddOverflow

theorem exists_word (value : Int) (above : -2 ^ 63 ≤ value) (below : value < 2 ^ 63) :
    ∃ word : Int64, word.toInt = value :=
  ⟨Int64.ofInt value, Int64.toInt_ofInt_of_le above below⟩

/-- Behind a word that is not negative, a digit can be appended exactly if the result fits. -/
theorem appendDigit?_eq_some {digit : Char} (nonneg : 0 ≤ left.toInt) (isDigit : digit.isDigit) :
    appendDigit? left digit = some word ↔ word.toInt = 10 * left.toInt + digitValue digit := by
  have small := digitValue_lt isDigit
  have digit_eq : (Int64.ofNat (digitValue digit)).toInt = digitValue digit :=
    Int64.toInt_ofNat_of_lt (by omega)
  have ten_eq : (10 : Int64).toInt = 10 := rfl
  simp only [appendDigit?, bind, Option.bind_eq_some_iff, mulWords?_eq_some, addWords?_eq_some,
    digit_eq, ten_eq]
  constructor
  · rintro ⟨scaled, scaled_eq, word_eq⟩
    omega
  · intro word_eq
    have := word.toInt_lt
    obtain ⟨scaled, scaled_eq⟩ := exists_word (left.toInt * 10) (by omega) (by omega)
    exact ⟨scaled, scaled_eq, by omega⟩

@[simp]
theorem wordOfDigits?_append (front : List Char) (last : Char) :
    wordOfDigits? (front ++ [last]) = (wordOfDigits? front).bind (appendDigit? · last) := by
  simp [wordOfDigits?]

/-- A run of digits is added up exactly, or else its number does not fit into a word. -/
theorem wordOfDigits?_eq_some (all_digits : ∀ digit ∈ digits, digit.isDigit) :
    wordOfDigits? digits = some word ↔ word.toInt = natOfDigits digits := by
  induction digits using List.reverseRecOn generalizing word with
  | nil =>
      have zero_eq : (0 : Int64).toInt = 0 := rfl
      simp [wordOfDigits?, natOfDigits, ← Int64.toInt_inj, zero_eq, eq_comm]
  | append_singleton front last induction =>
      obtain ⟨front_digits, last_digit⟩ := List.forall_mem_append.mp all_digits
      have isDigit := last_digit last (List.mem_singleton_self last)
      rw [wordOfDigits?_append, Option.bind_eq_some_iff, natOfDigits_append]
      simp only [induction front_digits]
      constructor
      · rintro ⟨sum, sum_eq, appended⟩
        have := (appendDigit?_eq_some (by omega) isDigit).mp appended
        omega
      · intro word_eq
        have := word.toInt_lt
        obtain ⟨sum, sum_eq⟩ := exists_word (natOfDigits front) (by omega) (by omega)
        exact ⟨sum, sum_eq, (appendDigit?_eq_some (by omega) isDigit).mpr (by omega)⟩

theorem le_of_wordOfDigits?_eq_none (all_digits : ∀ digit ∈ digits, digit.isDigit)
    (overflows : wordOfDigits? digits = none) : 2 ^ 63 ≤ natOfDigits digits := by
  by_contra fits
  obtain ⟨word, word_eq⟩ := exists_word (natOfDigits digits) (by omega) (by omega)
  rw [(wordOfDigits?_eq_some all_digits).mpr word_eq] at overflows
  cases overflows

theorem toInt_neg_of_nonneg (nonneg : 0 ≤ word.toInt) : (-word).toInt = -word.toInt := by
  have := word.toInt_lt
  rw [Int64.toInt_neg]
  exact Int.bmod_eq_of_le (by omega) (by omega)

end Numeral

namespace Payload

open Numeral

/-- The integer at the front of a text, computed in words of 64 bits. Where an operation overflows,
the result is the word at that end of the range. -/
def readWord (text : List Char) : Int64 :=
  let (sign, unsigned) := splitSign (Blank.trimStart text)
  match wordOfDigits? (unsigned.takeWhile Char.isDigit) with
  | some word => if sign = ['-'] then -word else word
  | none => if sign = ['-'] then Int64.minValue else Int64.maxValue

@[simp]
theorem toInt_readWord (text : List Char) : (readWord text).toInt = readInt text := by
  obtain ⟨front⟩ := Front.nonempty text
  rw [readInt_eq_clamp front, readWord, front.trimStart_eq,
    splitSign_append front.sign_eq front.no_other_sign]
  dsimp only
  rw [front.takeWhile_eq, clamp, Front.value, ← natOfDigits_eq_positionalValue]
  cases summed : wordOfDigits? front.digits with
  | none =>
      have := le_of_wordOfDigits?_eq_none front.digits_digit summed
      dsimp only
      split
      · rw [Int64.toInt_minValue]
        omega
      · rw [Int64.toInt_maxValue]
        omega
  | some word =>
      have word_eq := (wordOfDigits?_eq_some front.digits_digit).mp summed
      have := word.toInt_lt
      dsimp only
      split
      · rw [toInt_neg_of_nonneg (by omega)]
        omega
      · omega

theorem toList_toString_int (value : Int) :
    (toString value).toList =
      (if value < 0 then ['-'] else []) ++ Nat.toDigits 10 value.natAbs := by
  rw [Int.toString_eq_repr, Int.repr_eq_if]
  by_cases negative : value < 0
  · have toNat_eq : (-value).toNat = value.natAbs := by omega
    rw [if_neg (by omega), if_pos negative, toNat_eq, Nat.repr_eq_ofList_toDigits]
    simp
  · have toNat_eq : value.toNat = value.natAbs := by omega
    rw [if_pos (by omega), if_neg negative, toNat_eq, Nat.repr_eq_ofList_toDigits,
      String.toList_ofList, List.nil_append]

theorem minus_cases (value : Int) :
    (if value < 0 then ['-'] else []) = [] ∨ (if value < 0 then ['-'] else []) = ['-'] := by
  split
  · exact .inr rfl
  · exact .inl rfl

theorem isBlank_of_isDigit {letter : Char} (digit : letter.isDigit) :
    Blank.isBlank letter = false := by
  obtain ⟨value, small, rfl⟩ := isDigit_iff.mp digit
  have none_blank : ∀ value < 10, Blank.isBlank (Nat.digitChar value) = false := by decide
  exact none_blank value small

theorem of_mem_toString_int {value : Int} {letter : Char}
    (listed : letter ∈ (toString value).toList) : letter = '-' ∨ letter.isDigit := by
  rw [toList_toString_int] at listed
  exact of_mem_signed (minus_cases value) (digitRow_toDigits _).all_digits listed

theorem no_blank_toString_int (value : Int) :
    ∀ letter ∈ (toString value).toList, Blank.isBlank letter = false := by
  intro letter listed
  rcases of_mem_toString_int listed with rfl | digit
  · rfl
  · exact isBlank_of_isDigit digit

/-- A sign and digits are a front as a whole. -/
def Front.ofDigits {sign digits : List Char} (sign_eq : sign = [] ∨ sign = ['-'])
    (all_digits : ∀ letter ∈ digits, letter.isDigit) : Front (sign ++ digits) where
  blanks := []
  sign := sign
  digits := digits
  rest := []
  text_eq := by rw [List.append_nil, List.nil_append]
  blanks_blank := by simp
  no_more_blank := by
    intro letter first
    rw [List.append_nil] at first
    rcases of_mem_signed sign_eq all_digits (List.mem_of_mem_head? first) with rfl | digit
    · rfl
    · exact isBlank_of_isDigit digit
  sign_eq := sign_eq.imp_right .inl
  no_other_sign := by
    intro _
    rw [List.append_nil]
    exact noSign_of_head fun letter first => all_digits letter (List.mem_of_mem_head? first)
  digits_digit := all_digits
  no_more_digit := by simp [NoDigit]

theorem Front.value_ofDigits {sign digits : List Char} (sign_eq : sign = [] ∨ sign = ['-'])
    (all_digits : ∀ letter ∈ digits, letter.isDigit) :
    (Front.ofDigits sign_eq all_digits).value =
      if sign = ['-'] then -(positionalValue digits : Int) else positionalValue digits :=
  rfl

@[simp]
theorem positionalValue_toDigits (value : Nat) :
    positionalValue (Nat.toDigits 10 value) = value := by
  rw [← natOfDigits_eq_positionalValue]
  exact Nat.ofDigitChars_ten_toDigits

/-- The decimal text of an integer has a front that stands for the integer. -/
theorem exists_front_toString (value : Int) :
    ∃ front : Front (toString value).toList, front.value = value := by
  have digits_value := positionalValue_toDigits value.natAbs
  rw [toList_toString_int]
  by_cases negative : value < 0
  · rw [if_pos negative]
    refine ⟨.ofDigits (.inr rfl) (digitRow_toDigits _).all_digits, ?_⟩
    rw [Front.value_ofDigits, if_pos rfl, digits_value]
    omega
  · rw [if_neg negative]
    refine ⟨.ofDigits (.inl rfl) (digitRow_toDigits _).all_digits, ?_⟩
    rw [Front.value_ofDigits, if_neg (List.cons_ne_nil _ _).symm, digits_value]
    omega

@[simp]
theorem clamp_toInt (word : Int64) : clamp word.toInt = word.toInt := by
  have := word.le_toInt
  have := word.toInt_lt
  rw [clamp]
  omega

theorem readInt_toString (word : Int64) : readInt (toString word.toInt).toList = word.toInt := by
  obtain ⟨front, value_eq⟩ := exists_front_toString word.toInt
  rw [readInt_eq_clamp front, value_eq, clamp_toInt]

theorem readBool_toString (word : Int64) : readBool (toString word.toInt).toList = word.toInt := by
  have no_word {text : List Char} (listed : 'e' ∈ text) : (toString word.toInt).toList ≠ text := by
    rintro rfl
    rcases of_mem_toString_int listed with minus | digit
    · cases minus
    · cases digit
  rw [readBool, Blank.trim_of_no_blank (no_blank_toString_int _), if_neg (no_word (by simp)),
    if_neg (no_word (by simp)), readInt_toString]

end Payload

namespace Literal

open Payload

theorem ofConst_toString {type : ConstType} (integral : type.isIntegral) (word : Int64) :
    ofConst type (toString word.toInt) = .ok (.int word.toInt) := by
  cases type with
  | bool => rw [ofConst, readBool_toString]
  | long | numeric => rw [ofConst, readInt_toString]
  | double | string => cases integral

end Literal

namespace Callable

/-- A function that returns a constant. -/
def returning (name : String) (result : Variable) (type : ConstType) (payload : String) :
    Callable where
  kind := .function
  name
  params := []
  body := [.const result type payload, .ret (some result)]

/-- The code of a function that returns a constant. -/
theorem lower_returning {type : ConstType} {payload : String} {value : Literal}
    (read : Literal.ofConst type payload = .ok value) (name : String) (result : Variable)
    (naming : Naming) :
    (returning name result type payload).lower naming =
      .ok (Script.function name [] ("return " ++ value.render ++ ";\n")) := by
  have bound : ((Frame.start naming : Frame Literal Statement).bindConst result value).resolve
      result = .ok (.literal value) := by
    simp [Frame.resolve_eq_ok, Frame.bindConst]
  simp only [lower, returning, Header.lower, Frame.declareAll, List.map_cons, List.map_nil,
    Frame.lowerAll_cons, bind, Except.bind, Frame.lower, read, bound, pure, Except.pure]
  rfl

theorem decode_returning {field : Json} {result : Variable} {tag : String} {type : ConstType}
    (result_field : Grammar.VariableField field result) (type_tag : Grammar.TypeTag tag type)
    (name : String) (value : Int) :
    decode (.array [.array [.string "function", .string name, .ofNat 0], .array [.string "begin"],
        .array [.string "const", field, .string tag, .number (.integer value)],
        .array [.string "return", field]]) =
      .ok (returning name result type (toString value)) := by
  rw [decode_eq_ok]
  refine .mk .function name [] [] .nil (.cons (.mk ?_) (.cons (.mk ?_) .nil))
  · exact .const [] result_field type_tag (.number (.integer value))
  · exact .leaveWith [] result_field

end Callable

namespace Literal

open Payload Numeral Grammar

theorem ofConst_bool {payload : String} (front : Front (Blank.trim payload.toList)) :
    ofConst .bool payload = .ok (.int
      (if Blank.trim payload.toList = "true".toList then 1
      else if Blank.trim payload.toList = "false".toList then 0
      else clamp front.value)) := by
  rw [ofConst, readBool, readInt_eq_clamp front]
  rfl

/-- An integer constant is the number at the front of its payload, clamped to 64 bits, whatever the
length of its digits. A truth value is read in the same way from the trimmed payload unless that is
one of the two words. The same integer comes out of words of 64 bits: no sum on the way exceeds
them unless the digits do, and no negation does. So every integer of 64 bits is lowered to its own
decimal text, whether the builder makes a constant of it or a tuple has it as a number. -/
theorem integers_are_clamped (payload : String) :
    (Nonempty (Front payload.toList) ∧ ∀ front : Front payload.toList,
      ofConst .long payload = .ok (.int (clamp front.value)) ∧
      ofConst .numeric payload = .ok (.int (clamp front.value)) ∧
      (∀ count word, wordOfDigits? (front.digits.take count) = some word ↔
        word.toInt = positionalValue (front.digits.take count)) ∧
      ∀ word, wordOfDigits? front.digits = some word → (-word).toInt = -word.toInt) ∧
    (Nonempty (Front (Blank.trim payload.toList)) ∧ ∀ front : Front (Blank.trim payload.toList),
      ofConst .bool payload = .ok (.int
        (if Blank.trim payload.toList = "true".toList then 1
        else if Blank.trim payload.toList = "false".toList then 0
        else clamp front.value))) ∧
    (∀ text, readInt text = (readWord text).toInt) ∧
    ∀ (number : Int64) (compiler : Compiler) (name : String),
      compiler.cache.get? name = none →
      (compiler.lower ((Draft.built [.long number.toInt, .ret (some (.ofWord 0))]).toCallable
          name [])).1 =
        .ok (Script.function name [] ("return " ++ toString number.toInt ++ ";\n")) ∧
      ∀ type tag field result, type.isIntegral → TypeTag tag type → VariableField field result →
        (compiler.lowerTuples (.array [.array [.string "function", .string name, .ofNat 0],
          .array [.string "begin"],
          .array [.string "const", field, .string tag, .number (.integer number.toInt)],
          .array [.string "return", field]])).1 =
        .ok (Script.function name [] ("return " ++ toString number.toInt ++ ";\n")) := by
  refine ⟨⟨Front.nonempty _, fun front => ⟨?_, ?_, ?_, ?_⟩⟩, ⟨Front.nonempty _, ofConst_bool⟩,
    fun text => (toInt_readWord text).symm, ?_⟩
  · rw [ofConst, readInt_eq_clamp front]
  · rw [ofConst, readInt_eq_clamp front]
  · intro count word
    rw [← natOfDigits_eq_positionalValue]
    exact wordOfDigits?_eq_some fun digit taken =>
      front.digits_digit digit (List.mem_of_mem_take taken)
  · intro word summed
    have := (wordOfDigits?_eq_some front.digits_digit).mp summed
    exact toInt_neg_of_nonneg (by omega)
  · intro number compiler name uncached
    have lowered {type : ConstType} (integral : type.isIntegral) (result : Variable) :
        (compiler.lower (.returning name result type (toString number.toInt))).1 =
          .ok (Script.function name [] ("return " ++ toString number.toInt ++ ";\n")) := by
      rw [Compiler.lower_of_uncached uncached, Compiler.remember_fst,
        Callable.lower_returning (ofConst_toString integral number)]
      rfl
    refine ⟨lowered rfl (.ofWord 0), fun type tag field result integral type_tag result_field => ?_⟩
    rw [Compiler.lowerTuples_of_decode (Callable.decode_returning result_field type_tag name _),
      lowered integral result]

/-- A payload with digits far beyond 64 bits. -/
def endless : Front "\n-99999999999999999999kg".toList where
  blanks := ['\n']
  sign := ['-']
  digits := List.replicate 20 '9'
  rest := ['k', 'g']
  text_eq := rfl
  blanks_blank := fun letter listed => by rw [List.mem_singleton.mp listed]; rfl
  no_more_blank := fun letter first => by rw [← Option.some.inj first]; rfl
  sign_eq := .inr (.inl rfl)
  no_other_sign := by simp
  digits_digit := fun letter listed => by rw [List.eq_of_mem_replicate listed]; rfl
  no_more_digit := fun letter first => by rw [← Option.some.inj first]; rfl

/-- Digits far beyond 64 bits give the least integer, which is lowered to its text. Digits within
them can be negated. -/
theorem least_is_clamped :
    ofConst .long "\n-99999999999999999999kg" = .ok (.int (-9223372036854775808)) ∧
      wordOfDigits? ['7'] = some 7 ∧ (-7 : Int64).toInt = -(7 : Int64).toInt ∧
      Int64.minValue.toInt = -9223372036854775808 ∧
      (({} : Compiler).lower ((Draft.built [.long Int64.minValue.toInt,
          .ret (some (.ofWord 0))]).toCallable "f" [])).1 =
        .ok ("function f() " ++ Script.braced "\nreturn -9223372036854775808;\n") ∧
      (({} : Compiler).lowerTuples (.array [.array [.string "function", .string "f", .ofNat 0],
          .array [.string "begin"],
          .array [.string "const", .string "$this", .string "int",
            .number (.integer Int64.minValue.toInt)],
          .array [.string "return", .string "$this"]])).1 =
        .ok ("function f() " ++ Script.braced "\nreturn -9223372036854775808;\n") := by
  have seven : wordOfDigits? ['7'] = some 7 := by decide
  have clamped : clamp endless.value = -9223372036854775808 := by decide +kernel
  obtain ⟨⟨-, read⟩, -, -, lowers⟩ := integers_are_clamped "\n-99999999999999999999kg"
  obtain ⟨⟨-, small⟩, -⟩ := integers_are_clamped "-7"
  have digits : ∀ letter ∈ ['7'], letter.isDigit := by simp
  obtain ⟨-, -, -, negates⟩ := small (.ofDigits (.inr rfl) digits)
  obtain ⟨direct, tuples⟩ := lowers Int64.minValue {} "f" rfl
  refine ⟨?_, seven, negates 7 seven, Int64.toInt_minValue, direct, ?_⟩
  · rw [(read endless).1, clamped]
  · exact tuples .long "int" (.string "$this") .receiver rfl .int .receiver

end Literal

end ScriptLowering
