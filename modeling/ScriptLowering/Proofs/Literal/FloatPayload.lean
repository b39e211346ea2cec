import ScriptLowering.Proofs.Number.Numeral
import ScriptLowering.Text.Utf8

/-!
# Reading floating-point payloads

A floating-point number is read from the front of its payload: white space, and then the longest
numeral that starts there, whatever follows it. The end of that numeral can be found by the bytes of
the payload alone, where a letter beyond ASCII ends every part of a numeral, so that it never lies
inside such a letter. The central theorem is about all payloads: which part of them is read, and
that this part is always a floating-point number.
-/

namespace ScriptLowering

namespace Utf8

@[simp]
theorem encode_nil : encode [] = [] :=
  rfl

@[simp]
theorem encode_append (front behind : List Char) :
    encode (front ++ behind) = encode front ++ encode behind :=
  List.flatMap_append

@[simp]
theorem encode_cons (letter : Char) (rest : List Char) :
    encode (letter :: rest) = String.utf8EncodeChar letter ++ encode rest :=
  List.flatMap_cons

/-- The byte of an ASCII letter. -/
def byteOf (letter : Char) : UInt8 :=
  UInt8.ofNat letter.toNat

/-- An ASCII letter is one byte, and the first byte of any other letter is none of those. -/
theorem utf8EncodeChar_cases (letter : Char) :
    letter.toNat < 128 ∧ String.utf8EncodeChar letter = [byteOf letter] ∨
      128 ≤ letter.toNat ∧
        ∃ lead tail, String.utf8EncodeChar letter = lead :: tail ∧ 128 ≤ lead.toNat := by
  rw [String.utf8EncodeChar, byteOf, show letter.val.toNat = letter.toNat from rfl]
  have below : letter.toNat < 0x110000 := by
    rcases letter.valid with small | ⟨-, large⟩
    · exact Nat.lt_trans small (by decide)
    · exact large
  generalize letter.toNat = value at below
  split
  · exact .inl ⟨by omega, rfl⟩
  · refine .inr ⟨by omega, ?_⟩
    split
    · exact ⟨_, _, rfl, by rw [UInt8.toNat_ofNat']; omega⟩
    · split
      · exact ⟨_, _, rfl, by rw [UInt8.toNat_ofNat']; omega⟩
      · exact ⟨_, _, rfl, by rw [UInt8.toNat_ofNat']; omega⟩

theorem head?_encode {letter : Char} (ascii : letter.toNat < 128) (text : List Char) :
    (encode text).head? = some (byteOf letter) ↔ text.head? = some letter := by
  cases text with
  | nil => simp
  | cons first rest =>
      rw [encode_cons, List.head?_cons, Option.some.injEq]
      rcases utf8EncodeChar_cases first with ⟨small, one⟩ | ⟨large, lead, tail, many, high⟩
      · rw [one, List.singleton_append, List.head?_cons, Option.some.injEq]
        constructor
        · intro same
          have codes := congrArg UInt8.toNat same
          rw [byteOf, byteOf, UInt8.toNat_ofNat', UInt8.toNat_ofNat'] at codes
          exact Char.toNat_inj.mp (by omega)
        · rintro rfl
          rfl
      · rw [many, List.cons_append, List.head?_cons, Option.some.injEq]
        constructor
        · rintro rfl
          rw [byteOf, UInt8.toNat_ofNat'] at high
          omega
        · rintro rfl
          omega

/-- Behind the bytes of a text stands the byte of an ASCII letter exactly if the letter does. -/
theorem getElem?_encode {letter : Char} (ascii : letter.toNat < 128) (front behind : List Char) :
    (encode (front ++ behind))[(encode front).length]? = some (byteOf letter) ↔
      behind.head? = some letter := by
  rw [encode_append, List.getElem?_append_right (Nat.le_refl _), Nat.sub_self,
    ← List.head?_eq_getElem?, head?_encode ascii]

theorem length_encode_concat {letter : Char} (ascii : letter.toNat < 128) (front : List Char) :
    (encode (front ++ [letter])).length = (encode front).length + 1 := by
  rcases utf8EncodeChar_cases letter with ⟨-, one⟩ | ⟨large, -⟩
  · simp [one]
  · omega

theorem length_encode_lt {front more : List Char} :
    (encode front).length < (encode (front ++ more)).length ↔ more ≠ [] := by
  cases more with
  | nil => simp
  | cons letter rest =>
      rcases utf8EncodeChar_cases letter with ⟨-, one⟩ | ⟨-, lead, tail, many, -⟩
      · simp [one]
      · simp [many]

end Utf8

namespace Numeral

open Utf8

/-- The byte is that of a digit. -/
def isDigitByte (byte : UInt8) : Bool :=
  48 ≤ byte.toNat && byte.toNat ≤ 57

/-- The place behind a sign that may stand at the given place. -/
def signEnd (bytes : List UInt8) (start : Nat) : Nat :=
  if bytes[start]? = some (byteOf '-') ∨ bytes[start]? = some (byteOf '+') then start + 1 else start

/-- The place behind the digits from the given place on. -/
def digitsEnd (bytes : List UInt8) (start : Nat) : Nat :=
  start + ((bytes.drop start).takeWhile isDigitByte).length

/-- The place behind a power of ten that may stand at the given place. One without digits is left
aside. -/
def powerEnd (bytes : List UInt8) (start : Nat) : Nat :=
  if bytes[start]? = some (byteOf 'e') ∨ bytes[start]? = some (byteOf 'E') then
    let digitsStart := signEnd bytes (start + 1)
    let stop := digitsEnd bytes digitsStart
    if digitsStart < stop then stop else start
  else
    start

/-- The place behind the numeral at the start of the bytes. The digits on both sides of the point
are counted together. -/
def numeralEnd? (bytes : List UInt8) : Option Nat :=
  let wholeStart := signEnd bytes 0
  let wholeEnd := digitsEnd bytes wholeStart
  let pointed := bytes[wholeEnd]? = some (byteOf '.')
  let fractionStart := if pointed then wholeEnd + 1 else wholeEnd
  let fractionEnd := if pointed then digitsEnd bytes fractionStart else wholeEnd
  if wholeEnd - wholeStart + (fractionEnd - fractionStart) = 0 then none
  else some (powerEnd bytes fractionEnd)

theorem isDigitByte_byteOf {letter : Char} (ascii : letter.toNat < 128) :
    isDigitByte (byteOf letter) = letter.isDigit := by
  have digit_iff : letter.isDigit ↔ 48 ≤ letter.toNat ∧ letter.toNat ≤ 57 := by
    simp [Char.isDigit, UInt32.le_iff_toNat_le]
  have code_eq : (byteOf letter).toNat = letter.toNat := by
    rw [byteOf, UInt8.toNat_ofNat']
    omega
  rw [Bool.eq_iff_iff, digit_iff, isDigitByte, code_eq, Bool.and_eq_true, decide_eq_true_eq,
    decide_eq_true_eq]

/-- The digits at the start of a text are those at the start of its bytes. -/
@[simp]
theorem takeWhile_encode (text : List Char) :
    (encode text).takeWhile isDigitByte = encode (text.takeWhile Char.isDigit) := by
  induction text with
  | nil => rfl
  | cons letter rest induction =>
      rw [encode_cons, List.takeWhile_cons]
      rcases utf8EncodeChar_cases letter with ⟨small, one⟩ | ⟨large, lead, tail, many, high⟩
      · rw [one, List.singleton_append, List.takeWhile_cons, isDigitByte_byteOf small]
        cases letter.isDigit with
        | false => rfl
        | true =>
            rw [if_pos rfl, if_pos rfl, encode_cons, one, induction]
            rfl
      · have no_digit : letter.isDigit = false := by
          rw [Bool.eq_false_iff]
          intro digit
          have bounds : 48 ≤ letter.toNat ∧ letter.toNat ≤ 57 := by
            simpa [Char.isDigit, UInt32.le_iff_toNat_le] using digit
          omega
        have no_byte : isDigitByte lead = false := by
          simp only [isDigitByte, Bool.and_eq_false_iff, decide_eq_false_iff_not]
          omega
        rw [many, List.cons_append, List.takeWhile_cons, no_byte, no_digit]
        rfl

theorem digitsEnd_encode (front behind : List Char) :
    digitsEnd (encode (front ++ behind)) (encode front).length =
      (encode (front ++ (splitDigits behind).1)).length := by
  simp [digitsEnd, splitDigits]

theorem signEnd_encode (front behind : List Char) :
    signEnd (encode (front ++ behind)) (encode front).length =
      (encode (front ++ (splitSign behind).1)).length := by
  have minus := getElem?_encode (show '-'.toNat < 128 by decide) front behind
  have plus := getElem?_encode (show '+'.toNat < 128 by decide) front behind
  simp only [signEnd, minus, plus]
  split
  · rename_i signed
    rcases signed with first | first
    · obtain ⟨rest, rfl⟩ := List.head?_eq_some_iff.mp first
      exact (length_encode_concat (by decide) front).symm
    · obtain ⟨rest, rfl⟩ := List.head?_eq_some_iff.mp first
      exact (length_encode_concat (by decide) front).symm
  · rename_i unsigned
    have no_sign : NoSign behind := by
      intro letter first
      rw [Option.mem_def] at first
      rw [first] at unsigned
      simpa using unsigned
    have unsplit : splitSign behind = ([], behind) := splitSign_append (.inl rfl) fun _ => no_sign
    rw [unsplit, List.append_nil]

theorem powerEnd_encode (front behind : List Char) :
    powerEnd (encode (front ++ behind)) (encode front).length =
      (encode (front ++ spellPower (PowerOfTen.scan behind).1)).length := by
  have small := getElem?_encode (show 'e'.toNat < 128 by decide) front behind
  have large := getElem?_encode (show 'E'.toNat < 128 by decide) front behind
  simp only [powerEnd, small, large]
  split
  · rename_i marked
    obtain ⟨mark, rest, rfl, mark_eq⟩ :
        ∃ mark rest, behind = mark :: rest ∧ (mark = 'e' ∨ mark = 'E') := by
      rcases marked with first | first
      · obtain ⟨rest, rfl⟩ := List.head?_eq_some_iff.mp first
        exact ⟨'e', rest, rfl, .inl rfl⟩
      · obtain ⟨rest, rfl⟩ := List.head?_eq_some_iff.mp first
        exact ⟨'E', rest, rfl, .inr rfl⟩
    have ascii : mark.toNat < 128 := by
      rcases mark_eq with rfl | rfl <;> decide
    obtain ⟨rest_eq, -⟩ := splitSign_parts rest
    obtain ⟨sign, unsigned, split_sign⟩ : ∃ sign unsigned, splitSign rest = (sign, unsigned) :=
      ⟨_, _, rfl⟩
    have sign_stop : signEnd (encode (front ++ mark :: rest)) ((encode front).length + 1) =
        (encode (front ++ [mark] ++ sign)).length := by
      rw [List.append_cons, ← length_encode_concat ascii, signEnd_encode, split_sign]
    rw [split_sign] at rest_eq
    have digits_stop : digitsEnd (encode (front ++ mark :: rest))
        (encode (front ++ [mark] ++ sign)).length =
          (encode (front ++ [mark] ++ sign ++ (splitDigits unsigned).1)).length := by
      rw [← digitsEnd_encode, rest_eq, List.append_cons, List.append_assoc (front ++ [mark])]
    rw [sign_stop, digits_stop]
    by_cases none : (splitDigits unsigned).1 = []
    · rw [if_neg (mt length_encode_lt.mp (not_not.mpr none))]
      simp [PowerOfTen.scan, mark_eq, split_sign, none, spellPower]
    · rw [if_pos (length_encode_lt.mpr none)]
      simp [PowerOfTen.scan, mark_eq, split_sign, none, spellPower, PowerOfTen.spelling]
  · rename_i unmarked
    have unscanned : PowerOfTen.scan behind = (none, behind) := by
      cases behind with
      | nil => rfl
      | cons mark rest =>
          have no_mark : ¬ (mark = 'e' ∨ mark = 'E') := by simpa using unmarked
          simp [PowerOfTen.scan, no_mark]
    rw [unscanned, spellPower, List.append_nil]

/-- The bytes of a text show where the numeral at its start ends. -/
@[simp]
theorem numeralEnd?_encode (text : List Char) :
    numeralEnd? (encode text) =
      (scan? text).map fun (numeral, _) => (encode numeral.spelling).length := by
  obtain ⟨text_eq, -⟩ := splitSign_parts text
  obtain ⟨sign, unsigned, split_sign⟩ : ∃ sign unsigned, splitSign text = (sign, unsigned) :=
    ⟨_, _, rfl⟩
  obtain ⟨whole, behind, split_digits⟩ : ∃ whole behind, splitDigits unsigned = (whole, behind) :=
    ⟨_, _, rfl⟩
  have unsigned_eq := (splitDigits_eq_iff.mp split_digits).1
  have sign_stop : signEnd (encode text) 0 = (encode sign).length := by
    simpa [split_sign] using signEnd_encode [] text
  rw [split_sign] at text_eq
  have whole_stop : digitsEnd (encode text) (encode sign).length =
      (encode (sign ++ whole)).length := by
    rw [text_eq, digitsEnd_encode, split_digits]
  have text_parts : text = sign ++ whole ++ behind := by
    rw [text_eq, unsigned_eq, List.append_assoc]
  have pointed : (encode text)[(encode (sign ++ whole)).length]? = some (byteOf '.') ↔
      behind.head? = some '.' := by
    rw [text_parts]
    exact getElem?_encode (by decide) _ _
  -- Digits are counted by the distance between two ends, which is none only without digits.
  have no_more {front more : List Char} :
      (encode (front ++ more)).length - (encode front).length = 0 ↔ more = [] := by
    rw [Nat.sub_eq_zero_iff_le, ← Nat.not_lt, length_encode_lt, not_not]
  by_cases point : behind.head? = some '.'
  · obtain ⟨rest, rfl⟩ := List.head?_eq_some_iff.mp point
    obtain ⟨digits, last, split_rest⟩ : ∃ digits last, splitDigits rest = (digits, last) :=
      ⟨_, _, rfl⟩
    have rest_eq := (splitDigits_eq_iff.mp split_rest).1
    have text_pointed : text = sign ++ whole ++ ['.'] ++ rest := by
      rw [text_parts, List.append_cons]
    have fraction_start : (encode (sign ++ whole)).length + 1 =
        (encode (sign ++ whole ++ ['.'])).length :=
      (length_encode_concat (by decide) _).symm
    have fraction_stop : digitsEnd (encode text) (encode (sign ++ whole ++ ['.'])).length =
        (encode (sign ++ whole ++ ['.'] ++ digits)).length := by
      rw [text_pointed, digitsEnd_encode, split_rest]
    have power_stop : powerEnd (encode text) (encode (sign ++ whole ++ ['.'] ++ digits)).length =
        (encode (sign ++ whole ++ ['.'] ++ digits ++
          spellPower (PowerOfTen.scan last).1)).length := by
      rw [text_pointed, rest_eq, ← List.append_assoc, powerEnd_encode]
    have scanned : scanFraction ('.' :: rest) = (some digits, last) := by
      rw [scanFraction, split_rest]
    simp only [numeralEnd?, sign_stop, whole_stop, pointed, point, if_true, fraction_start,
      fraction_stop, power_stop, scan?, split_sign, split_digits, scanned, Nat.add_eq_zero_iff,
      no_more]
    by_cases none : whole = [] ∧ digits = []
    · simp [none]
    · rw [if_neg none, if_neg (by simpa using none)]
      simp [spelling_eq, spellFraction, Nat.add_assoc]
  · have unpointed : scanFraction behind = (none, behind) := by
      rw [scanFraction]
      rintro rest rfl
      exact point rfl
    have power_stop : powerEnd (encode text) (encode (sign ++ whole)).length =
        (encode (sign ++ whole ++ spellPower (PowerOfTen.scan behind).1)).length := by
      rw [text_parts, powerEnd_encode]
    simp only [numeralEnd?, sign_stop, whole_stop, pointed, point, if_false, power_stop, scan?,
      split_sign, split_digits, unpointed, Nat.sub_self, Nat.add_zero, no_more]
    by_cases none : whole = []
    · simp [none]
    · rw [if_neg none, if_neg (by simpa using none)]
      simp [spelling_eq, spellFraction]

end Numeral

namespace Payload

open Numeral

/-- The part of a payload that is read as a floating-point number, if there is one. -/
def floatSlice? (text : List Char) : Option (List Char) :=
  (scan? (Blank.trimStart text)).map fun (numeral, _) => numeral.spelling

variable {text slice : List Char}

theorem exists_of_floatSlice? (found : floatSlice? text = some slice) :
    ∃ numeral rest, scan? (Blank.trimStart text) = some (numeral, rest) ∧ numeral.Valid ∧
      numeral.spelling = slice ∧ Blank.trimStart text = slice ++ rest := by
  obtain ⟨⟨numeral, rest⟩, scanned, rfl⟩ := Option.map_eq_some_iff.mp found
  obtain ⟨valid, trimmed_eq⟩ := valid_of_scan? scanned
  exact ⟨numeral, rest, scanned, valid, rfl, trimmed_eq⟩

/-- Every numeral at the start of a payload, white space apart, is a part of what is read. -/
theorem exists_floatSlice?_of_numeric (numeric : IsNumeric slice)
    (front : slice <+: Blank.trimStart text) :
    ∃ longest, floatSlice? text = some longest ∧ slice <+: longest := by
  obtain ⟨numeral, valid, rfl⟩ := isNumeric_iff.mp numeric
  obtain ⟨rest, trimmed_eq⟩ := front
  obtain ⟨longest, behind, scanned, longer⟩ := exists_scan?_of_valid valid rest
  rw [trimmed_eq] at scanned
  exact ⟨longest.spelling, by rw [floatSlice?, scanned]; rfl, longer⟩

theorem floatSlice?_eq_some :
    floatSlice? text = some slice ↔
      slice <+: Blank.trimStart text ∧ IsNumeric slice ∧
        ∀ other, other <+: Blank.trimStart text → IsNumeric other →
          other.length ≤ slice.length := by
  constructor
  · intro found
    obtain ⟨numeral, rest, -, valid, spelled, trimmed_eq⟩ := exists_of_floatSlice? found
    refine ⟨⟨rest, trimmed_eq.symm⟩, isNumeric_iff.mpr ⟨numeral, valid, spelled⟩, ?_⟩
    intro other front numeric
    obtain ⟨longest, found_longest, longer⟩ := exists_floatSlice?_of_numeric numeric front
    rw [found, Option.some.injEq] at found_longest
    exact found_longest ▸ longer.length_le
  · rintro ⟨front, numeric, greatest⟩
    obtain ⟨longest, found, longer⟩ := exists_floatSlice?_of_numeric numeric front
    obtain ⟨numeral, rest, -, valid, spelled, trimmed_eq⟩ := exists_of_floatSlice? found
    have bounded := greatest longest ⟨rest, trimmed_eq.symm⟩
      (isNumeric_iff.mpr ⟨numeral, valid, spelled⟩)
    rw [found, longer.eq_of_length_le bounded]

theorem floatSlice?_eq_none :
    floatSlice? text = none ↔ ∀ other, other <+: Blank.trimStart text → ¬ IsNumeric other := by
  constructor
  · intro absent other front numeric
    obtain ⟨longest, found, -⟩ := exists_floatSlice?_of_numeric numeric front
    rw [absent] at found
    cases found
  · intro absent
    rw [Option.eq_none_iff_forall_ne_some]
    intro slice found
    obtain ⟨front, numeric, -⟩ := floatSlice?_eq_some.mp found
    exact absent slice front numeric

/-- What is read of a payload is a floating-point number, whose value is that of the payload. -/
theorem ofText?_of_floatSlice? (found : floatSlice? text = some slice) :
    Binary64.ofText? slice = some (readFloat text) := by
  obtain ⟨numeral, rest, scanned, valid, rfl, -⟩ := exists_of_floatSlice? found
  rw [ofText?_spelling valid, readFloat, scanned]

theorem readFloat_of_floatSlice?_eq_none (absent : floatSlice? text = none) :
    readFloat text = .zero false := by
  have unscanned : scan? (Blank.trimStart text) = none := Option.map_eq_none_iff.mp absent
  rw [readFloat, unscanned]

theorem numeralEnd?_trimStart (text : List Char) :
    numeralEnd? (Utf8.encode (Blank.trimStart text)) =
      (floatSlice? text).map fun slice => (Utf8.encode slice).length := by
  rw [numeralEnd?_encode, floatSlice?, Option.map_map]
  rfl

/-- Of a payload without its leading white space, exactly the longest part at the start that is a
numeral is read as a floating-point number, and if no part is one, the number is zero without any
reading. The place where that part ends can be found by the bytes alone and lies between two
letters. The part is always floating-point text, so that reading it never fails and zero never takes
the place of a failure. -/
theorem longest_numeral_is_read (text : List Char) :
    (∀ slice, floatSlice? text = some slice ↔
      slice <+: Blank.trimStart text ∧ IsNumeric slice ∧
        ∀ other, other <+: Blank.trimStart text → IsNumeric other →
          other.length ≤ slice.length) ∧
    (floatSlice? text = none ↔
      ∀ other, other <+: Blank.trimStart text → ¬ IsNumeric other) ∧
    (floatSlice? text = none → readFloat text = .zero false) ∧
    numeralEnd? (Utf8.encode (Blank.trimStart text)) =
      (floatSlice? text).map (fun slice => (Utf8.encode slice).length) ∧
    ∀ slice, floatSlice? text = some slice →
      (∃ rest, Blank.trimStart text = slice ++ rest ∧
        (Utf8.encode (Blank.trimStart text)).take (Utf8.encode slice).length = Utf8.encode slice ∧
        (Utf8.encode (Blank.trimStart text)).drop (Utf8.encode slice).length = Utf8.encode rest) ∧
      IsFloatText slice ∧
      Binary64.ofText? slice ≠ none ∧
      readFloat text = (Binary64.ofText? slice).getD (.zero false) := by
  refine ⟨fun slice => floatSlice?_eq_some, floatSlice?_eq_none, readFloat_of_floatSlice?_eq_none,
    numeralEnd?_trimStart text, fun slice found => ?_⟩
  obtain ⟨numeral, rest, -, valid, spelled, trimmed_eq⟩ := exists_of_floatSlice? found
  have parsed := ofText?_of_floatSlice? found
  refine ⟨⟨rest, trimmed_eq, ?_, ?_⟩, ?_, ?_, ?_⟩
  · rw [trimmed_eq, Utf8.encode_append, List.take_left]
  · rw [trimmed_eq, Utf8.encode_append, List.drop_left]
  · exact isFloatText_iff.mpr (isNumeric_iff.mpr ⟨numeral, valid, spelled⟩)
  · rw [parsed]
    exact Option.some_ne_none _
  · rw [parsed]
    rfl

/-- An exponent without digits is left aside together with what follows, and a sign with a point
is no numeral. -/
theorem careless_numeral_is_read :
    floatSlice? "\u2003-.5e+é".toList = some "-.5".toList ∧
      numeralEnd? (Utf8.encode "-.5e+é".toList) = some 3 ∧
      IsFloatText "-.5".toList ∧
      Binary64.ofText? "-.5".toList ≠ none ∧
      readFloat "\u2003-.5e+é".toList = Binary64.ofBits 0xBFE0000000000000 ∧
      (∀ other, other <+: "-.e".toList → ¬ IsNumeric other) ∧
      readFloat "-.e".toList = .zero false := by
  have found : floatSlice? "\u2003-.5e+é".toList = some "-.5".toList := by decide
  have trimmed : Blank.trimStart "\u2003-.5e+é".toList = "-.5e+é".toList := by decide
  have half : (Binary64.ofText? "-.5".toList).getD (.zero false) =
      Binary64.ofBits 0xBFE0000000000000 := by decide +kernel
  obtain ⟨-, -, -, stop, read⟩ := longest_numeral_is_read "\u2003-.5e+é".toList
  obtain ⟨-, float_text, parsed, value⟩ := read _ found
  rw [trimmed, found] at stop
  have absent : floatSlice? "-.e".toList = none := by decide
  obtain ⟨-, none_iff, zero, -, -⟩ := longest_numeral_is_read "-.e".toList
  exact ⟨found, stop, float_text, parsed, value.trans half, none_iff.mp absent, zero absent⟩

end Payload

end ScriptLowering
