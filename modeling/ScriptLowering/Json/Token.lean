import ScriptLowering.Json.Number
import ScriptLowering.Text.Delimited
import ScriptLowering.Text.Hex

/-!
# JSON tokens

The marks, words, numbers and strings that a JSON text is made of.
-/

namespace ScriptLowering

namespace Json

/-- A token of JSON text. -/
inductive Token where
  | openArray
  | closeArray
  | openObject
  | closeObject
  | comma
  | colon
  /-- A value that is no array and no object. -/
  | scalar (value : Json)

namespace Token

/-- The token of a punctuation mark. -/
def ofMark? : Char → Option Token
  | '[' => some .openArray
  | ']' => some .closeArray
  | '\x7b' => some .openObject
  | '\x7d' => some .closeObject
  | ',' => some .comma
  | ':' => some .colon
  | _ => none

/-- The character may stand between tokens. -/
def isSpace (letter : Char) : Bool :=
  letter == ' ' || letter == '\t' || letter == '\n' || letter == '\x0d'

/-- The character can be part of a word or a number. -/
def isWordChar (letter : Char) : Bool :=
  letter.isAlphanum || letter == '+' || letter == '-' || letter == '.'

/-- The value of a word or a number. -/
def ofWord? (word : List Char) : Option Json :=
  match String.ofList word with
  | "null" => some .null
  | "true" => some (.bool true)
  | "false" => some (.bool false)
  | _ =>
      match Numeral.scan? word with
      | some (numeral, []) =>
          if JsonNumber.isJsonNumeral numeral then (JsonNumber.ofNumeral? numeral).map .number
          else none
      | _ => none

/-- The character of a short escape. -/
def shortEscape? : Char → Option Char
  | '"' => some '"'
  | '\\' => some '\\'
  | '/' => some '/'
  | 'b' => some '\x08'
  | 'f' => some '\x0c'
  | 'n' => some '\n'
  | 'r' => some '\x0d'
  | 't' => some '\t'
  | _ => none

/-- The unit is the first of a surrogate pair. -/
def isHighSurrogate (code : Nat) : Bool :=
  decide (0xD800 ≤ code) && decide (code ≤ 0xDBFF)

/-- The unit is the second of a surrogate pair. -/
def isLowSurrogate (code : Nat) : Bool :=
  decide (0xDC00 ≤ code) && decide (code ≤ 0xDFFF)

/-- The text that the inside of a string spells. Control characters, unknown escapes and unpaired
surrogates spell none. -/
def unescape? : List Char → Option (List Char)
  | [] => some []
  | '\\' :: 'u' :: a :: b :: c :: d :: rest => do
      let code ← Hex.number? [a, b, c, d]
      if isHighSurrogate code then
        match rest with
        | '\\' :: 'u' :: e :: f :: g :: h :: behind => do
            let low ← Hex.number? [e, f, g, h]
            if isLowSurrogate low then
              return Char.ofNat (0x10000 + (code - 0xD800) * 0x400 + (low - 0xDC00))
                :: (← unescape? behind)
            else none
        | _ => none
      else if isLowSurrogate code then none
      else return Char.ofNat code :: (← unescape? rest)
  | '\\' :: mark :: rest => do
      return (← shortEscape? mark) :: (← unescape? rest)
  | letter :: rest =>
      if letter == '\\' || decide (letter.toNat < 0x20) then none
      else do return letter :: (← unescape? rest)

/-- The tokens of a text. -/
def scan? (text : List Char) : Option (List Token) :=
  match text with
  | [] => some []
  | letter :: rest =>
      if isSpace letter then scan? rest
      else if letter = '"' then
        match _found : Delimited.split? '"' true rest with
        | some (inside, behind) => do
            let value ← unescape? inside
            return .scalar (.string (String.ofList value)) :: (← scan? behind)
        | none => none
      else
        match ofMark? letter with
        | some mark => do return mark :: (← scan? rest)
        | none =>
            if isWordChar letter then do
              let value ← ofWord? (letter :: rest.takeWhile isWordChar)
              return .scalar value :: (← scan? (rest.dropWhile isWordChar))
            else none
termination_by text.length
decreasing_by
  all_goals simp only [List.length_cons]
  · omega
  · have := Delimited.length_split? _found
    omega
  · omega
  · have := (List.dropWhile_suffix isWordChar (l := rest)).length_le
    omega

end Token

end Json

end ScriptLowering
