import ScriptLowering.Instruction.Basic
import ScriptLowering.Text.Base64
import ScriptLowering.Text.Utf8

/-!
# Failures

Everything that can be wrong with a callable or a class, as causes. The wording of each cause is
in its `message`.
-/

namespace ScriptLowering

/-- Why a payload is no string. -/
inductive PayloadFault where
  /-- The payload is no canonical base64. -/
  | base64 (fault : Base64.Fault)
  /-- The bytes of the payload are no text. -/
  | utf8 (fault : Utf8.Fault)
  deriving DecidableEq

namespace PayloadFault

/-- The wording of a fault. -/
def message : PayloadFault → String
  | .base64 fault => fault.message
  | .utf8 fault => fault.message

end PayloadFault

/-- Why an item of a callable in tuple form is malformed. A `found` is the JSON text of what
stands in a field. -/
inductive TupleFault where
  /-- The callable is no array. -/
  | notAnArray
  /-- The callable has no items. -/
  | noHeader
  /-- The item is no array. -/
  | notATuple
  /-- The item is an empty array. -/
  | emptyTuple
  /-- The item ends before a field. -/
  | missing (field : Nat)
  /-- A field is no string. -/
  | notAString (field : Nat)
  /-- A field is no unsigned integer. -/
  | notACount (field : Nat)
  /-- A field is no 32-bit identifier. -/
  | notAnId (field : Nat) (found : String)
  /-- A field has the identifier of the receiver. -/
  | reservedId (field : Nat)
  /-- A field is an array or an object. -/
  | notAScalar (field : Nat) (found : String)
  /-- The header declares neither a function nor a method. -/
  | unknownKind (tag : String)
  /-- Something other than a parameter stands in front of the body. -/
  | strayItem (tag : String)
  /-- The items end before the body begins. -/
  | missingBegin
  /-- The header declares another number of parameters than there are. -/
  | parameterCount (declared found : Nat)
  /-- A call has no field for its result. -/
  | noResult
  deriving DecidableEq

namespace TupleFault

/-- The wording of a fault. -/
def message : TupleFault → String
  | .notAnArray => "instruction stream is not an array"
  | .noHeader => "instruction stream has no header"
  | .notATuple => "instruction is not a tuple"
  | .emptyTuple => "empty instruction tuple"
  | .missing field => "missing field " ++ toString field
  | .notAString field => "field " ++ toString field ++ " is not a string"
  | .notACount field => "field " ++ toString field ++ " is not a count"
  | .notAnId field found => "field " ++ toString field ++ " is not an id: " ++ found
  | .reservedId field =>
      "field " ++ toString field ++ " uses the id reserved for the receiver"
  | .notAScalar field found => "field " ++ toString field ++ " is not a scalar: " ++ found
  | .unknownKind tag => "unknown callee kind '" ++ tag ++ "'"
  | .strayItem tag => "expected 'param' or 'begin' before the body, found '" ++ tag ++ "'"
  | .missingBegin => "missing 'begin' sentinel"
  | .parameterCount declared found =>
      "header declares " ++ toString declared ++ " parameters, found " ++ toString found
  | .noResult => "function call without a result variable"

end TupleFault

/-- Why a class descriptor is malformed. A `found` is the JSON text of what stands in a field. -/
inductive ClassFault where
  /-- The descriptor is no object. -/
  | notAnObject
  /-- The class has no name. -/
  | noName
  /-- The parent class is no name. -/
  | parent (found : String)
  /-- The interfaces are no list. -/
  | interfaces (found : String)
  /-- An interface is no name. -/
  | interface (found : String)
  /-- The members of a sort are no list. -/
  | members (sort : String)
  /-- A property is no array. -/
  | propertyNotATuple
  /-- A part of a property is missing. -/
  | propertyPart (part : String)
  /-- A visibility has an unknown keyword. -/
  | visibility (keyword : String)
  /-- A method is no array or has no items. -/
  | methodNotAList
  /-- The header of a method is no array. -/
  | methodHeader
  deriving DecidableEq

namespace ClassFault

/-- The wording of a fault. -/
def message : ClassFault → String
  | .notAnObject => "descriptor is not an object"
  | .noName => "missing class name"
  | .parent found => "'extends' is not a name: " ++ found
  | .interfaces found => "'implements' is not a list: " ++ found
  | .interface found => "interface name is not a string: " ++ found
  | .members sort => "'" ++ sort ++ "' is not a list"
  | .propertyNotATuple => "property is not a tuple"
  | .propertyPart part => "property " ++ part ++ " missing"
  | .visibility keyword => "unknown visibility '" ++ keyword ++ "'"
  | .methodNotAList => "method is not a non-empty list"
  | .methodHeader => "method header is not a tuple"

end ClassFault

/-- Why a callable or a class cannot be read or lowered. -/
inductive Failure where
  /-- The callable calls itself. -/
  | recursion
  /-- A constant has an unknown type. -/
  | constType (tag : String)
  /-- An instruction has an unknown tag. -/
  | operation (tag : String)
  /-- A variable is used before it is introduced. -/
  | unbound (subject : Variable)
  /-- The payload of a string constant is no string. -/
  | payload (fault : PayloadFault)
  /-- The item of a callable at an index is malformed. -/
  | item (index : Nat) (fault : TupleFault)
  /-- A class descriptor is malformed. -/
  | descriptor (fault : ClassFault)
  /-- A header declares more parameters than memory has room for. This failure is not reported to
  anyone: it ends the program. -/
  | overflow
  deriving DecidableEq

namespace Failure

/-- The wording of a failure. -/
def message : Failure → String
  | .recursion => "Unsupported feature: recursive calls"
  | .constType tag => "Invalid constant type: " ++ tag
  | .operation tag => "Invalid op found: " ++ tag
  | .unbound subject =>
      "Unbound variable " ++ subject.render ++ " (referenced before declaration)"
  | .payload fault => "Invalid string payload: " ++ fault.message
  | .item index fault =>
      "Malformed instruction at index " ++ toString index ++ ": " ++ fault.message
  | .descriptor fault => "Malformed class descriptor: " ++ fault.message
  | .overflow => "capacity overflow"

end Failure

end ScriptLowering
