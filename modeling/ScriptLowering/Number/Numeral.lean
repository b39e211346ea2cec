import ScriptLowering.Number.Rounding

/-!
# Numerals

The numeral at the start of a text: an optional sign, digits with an optional point among or
around them, and an optional power of ten. A numeral keeps its spelling, so that a reader can
tell which part of a text it took.
-/

namespace ScriptLowering

namespace Numeral

/-- The value of a decimal digit. -/
def digitValue (digit : Char) : Nat :=
  digit.toNat - '0'.toNat

/-- The natural number that a run of digits spells. -/
def natOfDigits (digits : List Char) : Nat :=
  digits.foldl (fun value digit => 10 * value + digitValue digit) 0

/-- The value of a run of digits, or `limit` if it is larger. -/
def saturatingNatOfDigits (limit : Nat) (digits : List Char) : Nat :=
  digits.foldl
    (fun value digit =>
      let next := 10 * value + digitValue digit
      if limit ≤ next then limit else next)
    0

/-- A single leading sign and the text behind it. -/
def splitSign : List Char → List Char × List Char
  | '-' :: rest => (['-'], rest)
  | '+' :: rest => (['+'], rest)
  | text => ([], text)

/-- The leading run of digits and the text behind it. -/
def splitDigits (text : List Char) : List Char × List Char :=
  (text.takeWhile Char.isDigit, text.dropWhile Char.isDigit)

end Numeral

/-- The power of ten of a numeral. -/
structure PowerOfTen where
  /-- The letter that announces it. -/
  mark : Char
  /-- Its sign, if one is written. -/
  sign : List Char
  /-- Its digits, at least one. -/
  digits : List Char

namespace PowerOfTen

/-- The spelling of a power of ten. -/
def spelling (power : PowerOfTen) : List Char :=
  power.mark :: (power.sign ++ power.digits)

/-- The exponent that a power of ten stands for. -/
def value (power : PowerOfTen) : Int :=
  if power.sign = ['-'] then -(Numeral.natOfDigits power.digits : Int)
  else Numeral.natOfDigits power.digits

/-- A power of ten at the start of a text, and the text behind it. A mark without digits is
none. -/
def scan (text : List Char) : Option PowerOfTen × List Char :=
  match text with
  | mark :: rest =>
      if mark = 'e' ∨ mark = 'E' then
        let (sign, unsigned) := Numeral.splitSign rest
        let (digits, behind) := Numeral.splitDigits unsigned
        if digits.isEmpty then (none, text) else (some ⟨mark, sign, digits⟩, behind)
      else
        (none, text)
  | [] => (none, [])

end PowerOfTen

/-- A decimal numeral. -/
structure Numeral where
  /-- The sign, if one is written. -/
  sign : List Char
  /-- The digits in front of the point. -/
  whole : List Char
  /-- The digits behind the point, if there is a point. -/
  fraction : Option (List Char)
  /-- The power of ten, if there is one. -/
  power : Option PowerOfTen

namespace Numeral

/-- The spelling of a numeral. -/
def spelling (numeral : Numeral) : List Char :=
  let fraction :=
    match numeral.fraction with
    | some digits => '.' :: digits
    | none => []
  let power :=
    match numeral.power with
    | some power => power.spelling
    | none => []
  numeral.sign ++ numeral.whole ++ fraction ++ power

/-- A point at the start of a text with the digits behind it, and the text behind those. -/
def scanFraction : List Char → Option (List Char) × List Char
  | '.' :: rest =>
      let (digits, behind) := splitDigits rest
      (some digits, behind)
  | text => (none, text)

/-- The longest numeral at the start of a text, and the text behind it. A numeral has a digit on
at least one side of its point. -/
def scan? (text : List Char) : Option (Numeral × List Char) :=
  let (sign, unsigned) := splitSign text
  let (whole, afterWhole) := splitDigits unsigned
  let (fraction, afterFraction) := scanFraction afterWhole
  if whole.isEmpty && (fraction.getD []).isEmpty then none
  else
    let (power, behind) := PowerOfTen.scan afterFraction
    some (⟨sign, whole, fraction, power⟩, behind)

/-- The floating-point number nearest to a numeral. -/
def toBinary64 (numeral : Numeral) : Binary64 :=
  let fraction := numeral.fraction.getD []
  let power := (numeral.power.map PowerOfTen.value).getD 0
  Binary64.ofDecimal (numeral.sign == ['-']) (natOfDigits (numeral.whole ++ fraction))
    (power - fraction.length)

end Numeral

namespace Binary64

/-- The letters of a text in lower case. -/
def lowerCase (text : List Char) : List Char :=
  text.map Char.toLower

/-- The floating-point number that a whole text spells: a numeral, `inf`, `infinity` or `nan`,
the words in any case and with an optional sign. -/
def ofText? (text : List Char) : Option Binary64 :=
  let (sign, unsigned) := Numeral.splitSign text
  let negative := sign == ['-']
  let word := String.ofList (lowerCase unsigned)
  if word = "inf" ∨ word = "infinity" then some (infinity negative)
  else if word = "nan" then some { nan with negative }
  else
    match Numeral.scan? text with
    | some (numeral, []) => some numeral.toBinary64
    | _ => none

end Binary64

end ScriptLowering
