import ScriptLowering.Number.Binary64

/-!
# JSON values

A number is an integer or a floating-point number, as its literal was written: only the former
can be an identifier or a count. An object lists its fields by increasing key.
-/

namespace ScriptLowering

/-- A JSON number. -/
inductive JsonNumber where
  /-- A number written as an integer. -/
  | integer (value : Int)
  /-- A number written with a fraction or an exponent, or outside of the integer range. -/
  | float (value : Binary64)
  deriving DecidableEq

/-- A JSON value. -/
inductive Json where
  | null
  | bool (value : Bool)
  | number (value : JsonNumber)
  | string (value : String)
  | array (items : List Json)
  | object (fields : List (String × Json))

namespace Json

/-- The value of a whole number. -/
def ofNat (value : Nat) : Json :=
  .number (.integer value)

/-- The natural number that a value is, if it is one. -/
def nat? : Json → Option Nat
  | .number (.integer (.ofNat value)) => some value
  | _ => none

/-- The text that a value is, if it is one. -/
def string? : Json → Option String
  | .string value => some value
  | _ => none

/-- The items of an array. -/
def items? : Json → Option (List Json)
  | .array items => some items
  | _ => none

/-- The value of an object at a key. -/
def get? (value : Json) (key : String) : Option Json :=
  match value with
  | .object fields => fields.lookup key
  | _ => none

/-- Put a value at a key of a list of fields in key order, replacing the one that is there. -/
def insertField (key : String) (value : Json) : List (String × Json) → List (String × Json)
  | [] => [(key, value)]
  | (other, held) :: rest =>
      if key = other then (key, value) :: rest
      else if key < other then (key, value) :: (other, held) :: rest
      else (other, held) :: insertField key value rest

end Json

end ScriptLowering
