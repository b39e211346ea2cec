import ScriptLowering.ClassDecl.Basic
import ScriptLowering.Compiler.Basic

/-!
# Lowering classes

A class in lowered code lists its properties and then its methods. Methods pass through the cache
of the compiler under their own names, as functions do.
-/

namespace ScriptLowering

namespace Property

/-- The text of the default value of a property. Only that of a string is encoded. -/
def renderValue (property : Property) : Except Failure (Option String) :=
  match property.value with
  | none => .ok none
  | some payload =>
      if property.type = "string" then
        match Payload.readString payload with
        | .ok value => .ok (some (Literal.renderText value))
        | .error fault => .error (.payload fault)
      else
        .ok (some payload)

/-- The line of a property in lowered code. -/
def lower (property : Property) : Except Failure String := do
  return Script.property property.modifiers.render property.name (← property.renderValue)

end Property

namespace Compiler

/-- Lower a method, with its modifiers in front of it. -/
def lowerMethod (compiler : Compiler) (method : Method) : Except Failure String × Compiler :=
  match compiler.lower method.callable with
  | (.ok code, compiler) => (.ok (Script.method method.modifiers.render code), compiler)
  | (.error failure, compiler) => (.error failure, compiler)

/-- Lower methods in order up to the first failure. What was lowered before it stays
remembered. -/
def lowerMethods (compiler : Compiler) : List Method → Except Failure (List String) × Compiler
  | [] => (.ok [], compiler)
  | method :: rest =>
      match compiler.lowerMethod method with
      | (.error failure, compiler) => (.error failure, compiler)
      | (.ok code, compiler) =>
          match compiler.lowerMethods rest with
          | (.error failure, compiler) => (.error failure, compiler)
          | (.ok codes, compiler) => (.ok (code :: codes), compiler)

/-- Lower a class. -/
def lowerClass (compiler : Compiler) (decl : ClassDecl) : Except Failure String × Compiler :=
  match decl.properties.mapM Property.lower with
  | .error failure => (.error failure, compiler)
  | .ok properties =>
      match compiler.lowerMethods decl.methods with
      | (.error failure, compiler) => (.error failure, compiler)
      | (.ok methods, compiler) =>
          (.ok (Script.classOf decl.name decl.parent decl.interfaces
            (String.join (properties ++ methods))), compiler)

end Compiler

end ScriptLowering
