import ScriptLowering.Json.Basic
import ScriptLowering.Number.Layout
import ScriptLowering.Text.Hex

/-!
# The text of JSON values

Compact JSON: no space between tokens, and a backslash only in front of what may not stand bare
in a string.
-/

namespace ScriptLowering

/-- Floating-point numbers are positional from `10 ^ (-5)` up to below `10 ^ 16` and always have
a fraction there. Beyond, they have an exponent with its sign. -/
def JsonNumber.layout : Layout where
  tie := .even
  isPositional leading := decide (-5 ≤ leading) && decide (leading ≤ 15)
  whole := ['.', '0']
  plus := ['+']

/-- The text of a number. -/
def JsonNumber.render : JsonNumber → String
  | .integer value => toString value
  | .float value => String.ofList (layout.write value)

namespace Json

/-- The spelling of one character inside a string. -/
def escapeChar (letter : Char) : List Char :=
  match letter with
  | '"' => ['\\', '"']
  | '\\' => ['\\', '\\']
  | '\x08' => ['\\', 'b']
  | '\x09' => ['\\', 't']
  | '\x0a' => ['\\', 'n']
  | '\x0c' => ['\\', 'f']
  | '\x0d' => ['\\', 'r']
  | _ =>
      if letter.toNat < 0x20 then
        ['\\', 'u', '0', '0', Hex.digit (letter.toNat / 16), Hex.digit (letter.toNat % 16)]
      else
        [letter]

/-- The text of a string. -/
def renderString (text : String) : String :=
  "\"" ++ String.ofList (text.toList.flatMap escapeChar) ++ "\""

mutual

/-- The text of a value. -/
def render : Json → String
  | .null => "null"
  | .bool true => "true"
  | .bool false => "false"
  | .number value => value.render
  | .string value => renderString value
  | .array items => "[" ++ renderItems items ++ "]"
  | .object fields => "\x7b" ++ renderFields fields ++ "\x7d"

/-- The texts of the items of an array, with commas between them. -/
def renderItems : List Json → String
  | [] => ""
  | [item] => render item
  | item :: rest => render item ++ "," ++ renderItems rest

/-- The texts of the fields of an object, with commas between them. -/
def renderFields : List (String × Json) → String
  | [] => ""
  | [(key, value)] => renderString key ++ ":" ++ render value
  | (key, value) :: rest => renderString key ++ ":" ++ render value ++ "," ++ renderFields rest

end

end Json

end ScriptLowering
