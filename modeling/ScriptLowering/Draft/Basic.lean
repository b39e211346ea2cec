import ScriptLowering.Callable.Basic

/-!
# Drafts

A callable under construction: its instructions so far, and the variables and labels that are
still free. Variables that are read can be replaced throughout.
-/

namespace ScriptLowering

/-- A callable under construction. -/
structure Draft where
  /-- The instructions, in order. -/
  instrs : Array Instr := #[]
  /-- The number of the next variable. -/
  nextVariable : Nat := 0
  /-- The number of the next label. -/
  nextLabel : Nat := 0

namespace Draft

/-- Take the next variable. -/
def freshVariable (draft : Draft) : Variable × Draft :=
  (Variable.ofWord (UInt32.ofNat draft.nextVariable),
    { draft with nextVariable := draft.nextVariable + 1 })

/-- Take the next label. -/
def freshLabel (draft : Draft) : Label × Draft :=
  (⟨UInt32.ofNat draft.nextLabel⟩, { draft with nextLabel := draft.nextLabel + 1 })

/-- Add an instruction at the end. -/
def push (draft : Draft) (instr : Instr) : Draft :=
  { draft with instrs := draft.instrs.push instr }

/-- The places of the instructions that read a variable, in increasing order. -/
def readersOf (draft : Draft) (subject : Variable) : List Nat :=
  (draft.instrs.toList.zipIdx.filter fun (instr, _) => instr.reads subject).map Prod.snd

/-- Read one variable in place of another throughout, with the number of instructions that this
changes. -/
def replace (draft : Draft) (old new : Variable) : Nat × Draft :=
  let outcomes := draft.instrs.map (Instr.substitute old new)
  ((outcomes.filter Prod.fst).size, { draft with instrs := outcomes.map Prod.snd })

/-- The function with a name, parameters and the instructions of the draft. -/
def toCallable (draft : Draft) (name : String) (params : List Variable) : Callable where
  kind := .function
  name
  params
  body := draft.instrs.toList

/-- The listing of a draft. -/
def render (draft : Draft) : String :=
  String.join (draft.instrs.toList.map fun instr => "  " ++ instr.render ++ "\n")

end Draft

end ScriptLowering
