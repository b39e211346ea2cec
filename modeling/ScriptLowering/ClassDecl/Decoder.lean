import ScriptLowering.Callable.Decoder
import ScriptLowering.ClassDecl.Basic

/-!
# Reading classes

A class arrives as a JSON object. Its properties are tuples, and its methods are callables in
tuple form with a header of their own.
-/

namespace ScriptLowering

namespace Visibility

/-- The visibility with a keyword. -/
def ofKeyword (keyword : String) : Except Failure Visibility :=
  match ofKeyword? keyword with
  | some visibility => .ok visibility
  | none => .error (.descriptor (.visibility keyword))

end Visibility

namespace Modifiers

/-- A field sets a flag: it is the keyword of the flag or true. -/
def isSet (field : Option Json) (keyword : String) : Bool :=
  match field with
  | some (.string value) => value == keyword
  | some (.bool value) => value
  | _ => false

end Modifiers

namespace Property

/-- The text of an optional field. Everything empty counts as absent. -/
def optional? : Option Json → Option String
  | some (.string value) => if value.isEmpty then none else some value
  | some (.number value) => some value.render
  | some (.bool true) => some "true"
  | _ => none

/-- The string that a property must have at a position. -/
def part (fields : List Json) (position : Nat) (what : String) : Except Failure String :=
  match fields[position]? with
  | some (.string value) => .ok value
  | _ => .error (.descriptor (.propertyPart what))

/-- The property that a JSON value stands for. -/
def decode (value : Json) : Except Failure Property := do
  match value with
  | .array fields =>
      let name ← part fields 1 "name"
      let visibility ← Visibility.ofKeyword (← part fields 2 "visibility")
      return {
        doc := optional? fields[0]?
        name
        visibility
        isStatic := Modifiers.isSet fields[3]? "static"
        type := ← part fields 4 "type"
        value := optional? fields[5]? }
  | _ => .error (.descriptor .propertyNotATuple)

end Property

namespace Method

/-- The modifiers in the header of a method. -/
def decodeModifiers (header : Tuple) : Except Failure Modifiers := do
  return {
    visibility := ← Visibility.ofKeyword (← header.text 1)
    isStatic := Modifiers.isSet header.fields[2]? "static"
    isFinal := Modifiers.isSet header.fields[3]? "final" }

/-- The method that a JSON value stands for. -/
def decode (value : Json) : Except Failure Method := do
  match value with
  | .array (.array fields :: items) =>
      let header : Tuple := ⟨0, fields⟩
      let modifiers ← decodeModifiers header
      let name ← header.text 4
      let declared ← header.count 5
      let opening ← Opening.afterHeader .method name declared items
      return ⟨modifiers, ← opening.decode⟩
  | .array (_ :: _) => .error (.descriptor .methodHeader)
  | _ => .error (.descriptor .methodNotAList)

end Method

namespace ClassDecl

/-- The parent class in a descriptor. -/
def decodeParent : Option Json → Except Failure (Option String)
  | none | some .null | some (.bool false) => .ok none
  | some (.string value) => .ok (if value.isEmpty then none else some value)
  | some other => .error (.descriptor (.parent other.render))

/-- The interfaces in a descriptor. -/
def decodeInterfaces : Option Json → Except Failure (List String)
  | none | some .null => .ok []
  | some (.array names) =>
      names.mapM fun name =>
        match name with
        | .string value => .ok value
        | other => .error (.descriptor (.interface other.render))
  | some other => .error (.descriptor (.interfaces other.render))

/-- The members of a sort in a descriptor. -/
def members (sort : String) : Option Json → Except Failure (List Json)
  | none | some .null => .ok []
  | some (.array items) => .ok items
  | some _ => .error (.descriptor (.members sort))

/-- The class that a descriptor stands for. -/
def decode (value : Json) : Except Failure ClassDecl := do
  match value with
  | .object fields =>
      match fields.lookup "name" with
      | some (.string name) =>
          let parent ← decodeParent (fields.lookup "extends")
          let interfaces ← decodeInterfaces (fields.lookup "implements")
          let properties ← (← members "properties" (fields.lookup "properties")).mapM
            Property.decode
          let methods ← (← members "methods" (fields.lookup "methods")).mapM Method.decode
          return { name, parent, interfaces, properties, methods }
      | _ => .error (.descriptor .noName)
  | _ => .error (.descriptor .notAnObject)

end ClassDecl

end ScriptLowering
