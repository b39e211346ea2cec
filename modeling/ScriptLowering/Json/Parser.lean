import ScriptLowering.Json.Token

/-!
# Reading JSON

A text is read token by token with a stack of the arrays and objects that are still open. The
height of the stack is limited.
-/

namespace ScriptLowering

namespace Json

/-- An array or object that is still open. -/
inductive Container where
  /-- An array with its items so far, newest first. -/
  | array (items : List Json)
  /-- An object with its fields so far and the key whose value is awaited. -/
  | object (fields : List (String × Json)) (key : String)

/-- What may come next. -/
inductive Place where
  /-- A value. -/
  | value
  /-- The first item of an array, or its end. -/
  | firstItem
  /-- The first key of an object, or its end. -/
  | firstKey
  /-- A further key of an object. -/
  | key
  /-- The colon between a key and its value. -/
  | colon
  /-- A comma or the end of a container. -/
  | separator
  /-- The end of the text, behind a whole value. -/
  | finished (value : Json)

/-- A reader in the middle of a text. -/
structure Reader where
  /-- The open containers, innermost first. -/
  containers : List Container
  /-- What may come next. -/
  place : Place

namespace Reader

/-- Deliver a whole value to the innermost container. -/
def deliver (containers : List Container) (value : Json) : Reader :=
  match containers with
  | [] => ⟨[], .finished value⟩
  | .array items :: outer => ⟨.array (value :: items) :: outer, .separator⟩
  | .object fields key :: outer =>
      ⟨.object (insertField key value fields) key :: outer, .separator⟩

/-- Read a token where a value may stand. -/
def value? (limit : Nat) (reader : Reader) : Token → Option Reader
  | .scalar value => some (deliver reader.containers value)
  | .openArray =>
      if reader.containers.length < limit then
        some ⟨.array [] :: reader.containers, .firstItem⟩
      else none
  | .openObject =>
      if reader.containers.length < limit then
        some ⟨.object [] "" :: reader.containers, .firstKey⟩
      else none
  | _ => none

/-- Read a token where a key may stand. -/
def key? (reader : Reader) : Token → Option Reader
  | .scalar (.string key) =>
      match reader.containers with
      | .object fields _ :: outer => some ⟨.object fields key :: outer, .colon⟩
      | _ => none
  | _ => none

/-- Read a token that ends the innermost container. -/
def close? (reader : Reader) : Token → Option Reader
  | .closeArray =>
      match reader.containers with
      | .array items :: outer => some (deliver outer (.array items.reverse))
      | _ => none
  | .closeObject =>
      match reader.containers with
      | .object fields _ :: outer => some (deliver outer (.object fields))
      | _ => none
  | _ => none

/-- Read a token behind a value that stands in a container. -/
def separator? (reader : Reader) : Token → Option Reader
  | .comma =>
      match reader.containers with
      | .array _ :: _ => some { reader with place := .value }
      | .object _ _ :: _ => some { reader with place := .key }
      | [] => none
  | token => reader.close? token

/-- Read one token, with at most `limit` containers open at a time. -/
def step? (limit : Nat) (reader : Reader) (token : Token) : Option Reader :=
  match reader.place with
  | .value => reader.value? limit token
  | .firstItem => reader.close? token <|> reader.value? limit token
  | .firstKey => reader.close? token <|> reader.key? token
  | .key => reader.key? token
  | .colon =>
      match token with
      | .colon => some { reader with place := .value }
      | _ => none
  | .separator => reader.separator? token
  | .finished _ => none

end Reader

/-- The value of a JSON text whose arrays and objects are nested at most `limit` deep. -/
def parse? (limit : Nat) (text : String) : Option Json := do
  let tokens ← Token.scan? text.toList
  let reader ← tokens.foldlM (Reader.step? limit) ⟨[], .value⟩
  match reader.place with
  | .finished value => some value
  | _ => none

end Json

end ScriptLowering
