import ScriptLowering.Callable.Basic

/-!
# Classes

The declaration of a class: its ancestry, its properties and its methods.
-/

namespace ScriptLowering

/-- Who may use a member of a class. -/
inductive Visibility where
  | pub
  | prot
  | priv
  deriving DecidableEq

namespace Visibility

/-- The keyword of a visibility. -/
def keyword : Visibility → String
  | .pub => "public"
  | .prot => "protected"
  | .priv => "private"

/-- The visibility with a keyword. -/
def ofKeyword? : String → Option Visibility
  | "public" => some .pub
  | "protected" => some .prot
  | "private" => some .priv
  | _ => none

end Visibility

/-- What is said about a member of a class in front of it. -/
structure Modifiers where
  /-- Who may use the member. -/
  visibility : Visibility
  /-- The member belongs to the class and not to its objects. -/
  isStatic : Bool
  /-- The member may not be overridden. -/
  isFinal : Bool
  deriving DecidableEq

namespace Modifiers

/-- The text of modifiers. -/
def render (modifiers : Modifiers) : String :=
  modifiers.visibility.keyword ++ (if modifiers.isStatic then " static" else "")
    ++ (if modifiers.isFinal then " final" else "")

end Modifiers

/-- A property of a class. -/
structure Property where
  /-- The comment on the property. -/
  doc : Option String
  /-- The name of the property. -/
  name : String
  /-- Who may use the property. -/
  visibility : Visibility
  /-- The property belongs to the class and not to its objects. -/
  isStatic : Bool
  /-- The tag of the type of the property. -/
  type : String
  /-- The payload of the default value. -/
  value : Option String
  deriving DecidableEq

namespace Property

/-- The modifiers of a property. -/
def modifiers (property : Property) : Modifiers :=
  ⟨property.visibility, property.isStatic, false⟩

end Property

/-- A method of a class. -/
structure Method where
  /-- What is said about the method in front of it. -/
  modifiers : Modifiers
  /-- The method itself. -/
  callable : Callable
  deriving DecidableEq

/-- A class. -/
structure ClassDecl where
  /-- The name of the class. -/
  name : String
  /-- The parent class. -/
  parent : Option String
  /-- The interfaces that the class implements. -/
  interfaces : List String
  /-- The properties, in order. -/
  properties : List Property
  /-- The methods, in order. -/
  methods : List Method
  deriving DecidableEq

end ScriptLowering
