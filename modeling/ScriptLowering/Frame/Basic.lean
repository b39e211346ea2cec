import ScriptLowering.Failure
import ScriptLowering.Naming.Basic
import ScriptLowering.Script.Statement

/-!
# Frames

The state of lowering one body: what every variable and label is called so far, and what has
been emitted. Names are numbered by slots in the order of introduction and never given twice. An
inlined constant takes a slot too, but neither its value nor any statement has a say in them.
-/

namespace ScriptLowering

/-- The state of lowering one body, with inlined constants of type `κ` and statements of type
`σ`. -/
structure Frame (κ σ : Type) where
  /-- The words that names are made of. -/
  naming : Naming
  /-- What each variable is called, the latest introduction first. -/
  bindings : List (Variable × Binding κ)
  /-- The labels, in the order of their first mention. -/
  labels : List Label
  /-- The number of the next slot. -/
  nextSlot : Nat
  /-- The statements, in order. -/
  emitted : Array σ

namespace Frame

variable {κ σ : Type}

/-- The frame at the start of a body, in which only the receiver has a name. Slots are numbered
from two. -/
def start (naming : Naming) : Frame κ σ where
  naming
  bindings := [(.receiver, .name naming.receiver)]
  labels := []
  nextSlot := 2
  emitted := #[]

/-- Call a variable what a binding says, at the cost of one slot. -/
def introduce (frame : Frame κ σ) (subject : Variable) (binding : Binding κ) : Frame κ σ :=
  { frame with
    bindings := (subject, binding) :: frame.bindings
    nextSlot := frame.nextSlot + 1 }

/-- Give a variable the name of the next slot. -/
def declare (frame : Frame κ σ) (subject : Variable) : String × Frame κ σ :=
  let name := frame.naming.variableName frame.nextSlot
  (name, frame.introduce subject (.name name))

/-- Give variables the names of the next slots, in order. -/
def declareAll (frame : Frame κ σ) : List Variable → List String × Frame κ σ
  | [] => ([], frame)
  | subject :: rest =>
      let (name, declared) := frame.declare subject
      let (names, final) := declared.declareAll rest
      (name :: names, final)

/-- Inline a constant wherever a variable is used from here on. -/
def bindConst (frame : Frame κ σ) (subject : Variable) (value : κ) : Frame κ σ :=
  frame.introduce subject (.literal value)

/-- What a variable is called, if it has been introduced. -/
def binding? (frame : Frame κ σ) (subject : Variable) : Option (Binding κ) :=
  frame.bindings.lookup subject

/-- What a variable is called. -/
def resolve (frame : Frame κ σ) (subject : Variable) : Except Failure (Binding κ) :=
  match frame.binding? subject with
  | some binding => .ok binding
  | none => .error (.unbound subject)

/-- The name of a label, which its first mention gives to it. Labels are numbered from one. -/
def mention (frame : Frame κ σ) (label : Label) : String × Frame κ σ :=
  match frame.labels.idxOf? label with
  | some index => (frame.naming.labelName (index + 1), frame)
  | none =>
      (frame.naming.labelName (frame.labels.length + 1),
        { frame with labels := frame.labels ++ [label] })

/-- Emit a statement. -/
def emit (frame : Frame κ σ) (statement : σ) : Frame κ σ :=
  { frame with emitted := frame.emitted.push statement }

/-- The text of all statements, where each has the given spelling. -/
def output (frame : Frame κ σ) (spell : σ → String) : String :=
  String.join (frame.emitted.toList.map spell)

end Frame

end ScriptLowering
