import ScriptLowering.Number.Layout
import ScriptLowering.Text.Quoted

/-!
# Literals

The constants that stand in lowered code, and their spelling. The spelling shows the class of a
constant: an integer is digits alone, a floating-point number has a point or an exponent, and a
text has quotes.
-/

namespace ScriptLowering

/-- A constant in lowered code. -/
inductive Literal where
  | int (value : Int)
  | float (value : Binary64)
  | text (value : String)
  deriving DecidableEq

namespace Literal

/-- Floating-point literals are positional from `10 ^ (-4)` up to below `10 ^ 16` and always have
a fraction there. Beyond, they have an exponent without a plus sign. -/
def layout : Layout where
  tie := .away
  isPositional leading := decide (-4 ≤ leading) && decide (leading ≤ 15)
  whole := ['.', '0']
  plus := []

/-- The spelling of a floating-point literal. -/
def renderFloat (value : Binary64) : String :=
  if value.isFinite then String.ofList (layout.write value)
  else if value.isInfinite then if value.negative then "-INF" else "INF"
  else "NAN"

/-- The spelling of a text literal. -/
def renderText (value : String) : String :=
  String.ofList (Quoted.quote value.toList)

/-- The spelling of a literal. -/
def render : Literal → String
  | .int value => toString value
  | .float value => renderFloat value
  | .text value => renderText value

end Literal

end ScriptLowering
