import ScriptLowering.Script.Statement

/-!
# Declarations

Functions, members and classes of lowered code, made of the texts of their parts.
-/

namespace ScriptLowering

namespace Script

/-- The name of the language of lowered code. -/
def language : String := "script"

/-- A function with the names of its parameters and the text of its statements. -/
def function (name : String) (params : List String) (body : String) : String :=
  "function " ++ name ++ "(" ++ String.intercalate ", " params ++ ") "
    ++ braced ("\n" ++ body)

/-- A property with its modifiers and the text of its default value. -/
def property (modifiers name : String) (value : Option String) : String :=
  match value with
  | some value => modifiers ++ " $" ++ name ++ " = " ++ value ++ ";\n"
  | none => modifiers ++ " $" ++ name ++ ";\n"

/-- A method with its modifiers and the text of its function. -/
def method (modifiers code : String) : String :=
  modifiers ++ " " ++ code ++ "\n"

/-- A class with its parent, its interfaces and the text of its members. -/
def classOf (name : String) (parent : Option String) (interfaces : List String)
    (members : String) : String :=
  let extending :=
    match parent with
    | some parent => " extends " ++ parent
    | none => ""
  let implementing :=
    if interfaces.isEmpty then "" else " implements " ++ String.intercalate ", " interfaces
  "class " ++ name ++ extending ++ implementing ++ " " ++ braced ("\n" ++ members ++ "\n")

end Script

end ScriptLowering
