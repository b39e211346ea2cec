/-!
# Naming

The words from which the names in lowered code are made.
-/

namespace ScriptLowering

/-- How variables, labels and the receiver are called in lowered code. -/
structure Naming where
  /-- What stands in front of the number of a variable. -/
  variablePrefix : String := "$var"
  /-- The name of the receiver. -/
  receiver : String := "$this"
  /-- What stands in front of the number of a label. -/
  labelPrefix : String := "label_"
  deriving DecidableEq

namespace Naming

/-- The name of the variable in a numbered slot. -/
def variableName (naming : Naming) (slot : Nat) : String :=
  naming.variablePrefix ++ toString slot

/-- The name of the label with a number. -/
def labelName (naming : Naming) (number : Nat) : String :=
  naming.labelPrefix ++ toString number

end Naming

end ScriptLowering
