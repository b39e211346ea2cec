import ScriptLowering.Compiler.Basic
import ScriptLowering.Proofs.Frame.Step
import Mathlib.Logic.Equiv.Basic

/-!
# Other identities

Lowered code shows which variables and labels of a callable are the same and nothing else about
them. If all of them are given other identities, different ones to different ones, and the
receiver stays the receiver, then the code is the same to the letter, and a failure is the same
under the new identities. The proof runs through frames: to rename and then to lower an
instruction is to lower it and then to rename.
-/

namespace ScriptLowering

/-- Other identities for all variables and labels. -/
structure Renaming where
  /-- The new variable for a variable. -/
  onVariable : Variable → Variable
  /-- The new label for a label. -/
  onLabel : Label → Label
  /-- Different variables stay different. -/
  onVariable_injective : Function.Injective onVariable
  /-- Different labels stay different. -/
  onLabel_injective : Function.Injective onLabel
  /-- The receiver stays the receiver. -/
  onVariable_receiver : onVariable .receiver = .receiver

variable (relabel : Renaming)

/-- The instruction under new identities: operands, results, ends of uses, labels and targets. -/
def Instr.rename : Instr → Instr
  | .const result type payload => .const (relabel.onVariable result) type payload
  | .declare result => .declare (relabel.onVariable result)
  | .assign result source => .assign (relabel.onVariable result) (relabel.onVariable source)
  | .fetch result object property =>
      .fetch (relabel.onVariable result) (relabel.onVariable object) property
  | .unary op result operand =>
      .unary op (relabel.onVariable result) (relabel.onVariable operand)
  | .binary op result left right =>
      .binary op (relabel.onVariable result) (relabel.onVariable left)
        (relabel.onVariable right)
  | .label target => .label (relabel.onLabel target)
  | .jump target => .jump (relabel.onLabel target)
  | .jumpIfFalse condition target =>
      .jumpIfFalse (relabel.onVariable condition) (relabel.onLabel target)
  | .ret value => .ret (value.map relabel.onVariable)
  | .call result callee arguments =>
      .call (relabel.onVariable result) callee (arguments.map relabel.onVariable)
  | .free subject => .free (relabel.onVariable subject)
  | .recurse => .recurse

/-- The callable under new identities. -/
def Callable.rename (callable : Callable) : Callable :=
  { callable with
    params := callable.params.map relabel.onVariable
    body := callable.body.map (Instr.rename relabel) }

/-- The failure under new identities, of which only a missing variable has one. -/
def Failure.rename : Failure → Failure
  | .unbound subject => .unbound (relabel.onVariable subject)
  | failure => failure

/-- The frame under new identities. -/
def Frame.rename {κ σ : Type} (frame : Frame κ σ) : Frame κ σ :=
  { frame with
    bindings := frame.bindings.map fun entry => (relabel.onVariable entry.1, entry.2)
    labels := frame.labels.map relabel.onLabel }

namespace Frame

variable {κ σ : Type} (frame : Frame κ σ)

@[simp]
theorem start_rename (naming : Naming) :
    (start naming : Frame κ σ).rename relabel = start naming := by
  simp only [rename, start, List.map_cons, List.map_nil, relabel.onVariable_receiver]

@[simp]
theorem declare_rename (subject : Variable) :
    (frame.rename relabel).declare (relabel.onVariable subject) =
      ((frame.declare subject).1, (frame.declare subject).2.rename relabel) :=
  rfl

@[simp]
theorem declareAll_rename (params : List Variable) :
    (frame.rename relabel).declareAll (params.map relabel.onVariable) =
      ((frame.declareAll params).1, (frame.declareAll params).2.rename relabel) := by
  induction params generalizing frame with
  | nil => rfl
  | cons subject rest induction => simp [declareAll, induction]

@[simp]
theorem binding?_rename (subject : Variable) :
    (frame.rename relabel).binding? (relabel.onVariable subject) = frame.binding? subject := by
  simp only [binding?, rename]
  induction frame.bindings with
  | nil => rfl
  | cons entry rest induction =>
      rw [List.map_cons, List.lookup_cons, List.lookup_cons, induction]
      by_cases same : subject = entry.1
      · simp [same]
      · have different : relabel.onVariable subject ≠ relabel.onVariable entry.1 := fun equal =>
          same (relabel.onVariable_injective equal)
        simp [beq_false_of_ne same, beq_false_of_ne different]

@[simp]
theorem resolve_rename (subject : Variable) :
    (frame.rename relabel).resolve (relabel.onVariable subject) =
      (frame.resolve subject).mapError (Failure.rename relabel) := by
  rw [resolve, resolve, binding?_rename]
  cases frame.binding? subject <;> rfl

theorem mapM_resolve_rename (subjects : List Variable) :
    (subjects.map relabel.onVariable).mapM (frame.rename relabel).resolve =
      (subjects.mapM frame.resolve).mapError (Failure.rename relabel) := by
  induction subjects with
  | nil => rfl
  | cons subject rest induction =>
      rw [List.map_cons, List.mapM_cons, List.mapM_cons, resolve_rename, induction]
      cases frame.resolve subject with
      | error failure => rfl
      | ok binding => cases rest.mapM frame.resolve <;> rfl

/-- A label is numbered by its place in the table, which is the same under new identities. -/
@[simp]
theorem mention_rename (label : Label) :
    (frame.rename relabel).mention (relabel.onLabel label) =
      ((frame.mention label).1, (frame.mention label).2.rename relabel) := by
  have place : (frame.labels.map relabel.onLabel).idxOf? (relabel.onLabel label) =
      frame.labels.idxOf? label := by
    induction frame.labels with
    | nil => rfl
    | cons head rest induction =>
        rw [List.map_cons, List.idxOf?_cons, List.idxOf?_cons, induction]
        simp only [beq_iff_eq, relabel.onLabel_injective.eq_iff]
  simp only [mention, rename, place]
  cases frame.labels.idxOf? label <;> simp

end Frame

/-- A payload has no identities, nor has what is wrong with it. -/
@[simp]
theorem Literal.ofConst_rename (type : ConstType) (payload : String) :
    (ofConst type payload).mapError (Failure.rename relabel) = ofConst type payload := by
  cases type with
  | string =>
      rw [ofConst]
      cases Payload.readString payload <;> rfl
  | _ => rfl

namespace Frame

variable (frame : Frame Literal Statement)

/-- To rename and then to lower an instruction is to lower it and then to rename. -/
@[simp]
theorem lower_rename (instr : Instr) :
    (frame.rename relabel).lower (instr.rename relabel) =
      ((frame.lower instr).map (rename relabel)).mapError (Failure.rename relabel) := by
  cases instr with
  | free _ | declare _ | recurse => rfl
  | const result type payload =>
      rw [Instr.rename, lower, lower]
      have decoded := Literal.ofConst_rename relabel type payload
      cases read : Literal.ofConst type payload with
      | ok value => rfl
      | error failure =>
          rw [read] at decoded
          exact congrArg Except.error (Except.error.inj decoded).symm
  | assign result operand | fetch result operand _ | unary _ result operand =>
      simp only [Instr.rename, lower, resolve_rename]
      cases frame.resolve result with
      | error failure => rfl
      | ok binding => cases frame.resolve operand <;> rfl
  | binary op result left right =>
      simp only [Instr.rename, lower, resolve_rename]
      cases frame.resolve result with
      | error failure => rfl
      | ok binding =>
          cases frame.resolve left with
          | error failure => rfl
          | ok leftBinding => cases frame.resolve right <;> rfl
  | label target | jump target =>
      simp only [Instr.rename, lower, mention_rename]
      rfl
  | jumpIfFalse condition target =>
      simp only [Instr.rename, lower, resolve_rename, mention_rename]
      cases frame.resolve condition <;> rfl
  | ret value =>
      cases value with
      | none => rfl
      | some value =>
          simp only [Instr.rename, Option.map_some, lower, resolve_rename]
          cases frame.resolve value <;> rfl
  | call result callee arguments =>
      simp only [Instr.rename, lower, resolve_rename, mapM_resolve_rename]
      cases arguments.mapM frame.resolve with
      | error failure => rfl
      | ok bindings => cases frame.resolve result <;> rfl

theorem lowerAll_rename (body : List Instr) :
    (frame.rename relabel).lowerAll ((body.map (Instr.rename relabel)).map .ok) =
      ((frame.lowerAll (body.map .ok)).map (rename relabel)).mapError
        (Failure.rename relabel) := by
  induction body generalizing frame with
  | nil => rfl
  | cons instr body induction =>
      have head : (.ok (instr.rename relabel) >>= (frame.rename relabel).lower) =
          ((.ok instr >>= frame.lower).map (rename relabel)).mapError
            (Failure.rename relabel) := frame.lower_rename relabel instr
      simp only [List.map_cons, lowerAll_cons, head]
      cases .ok instr >>= frame.lower with
      | error failure => rfl
      | ok next => exact induction next

end Frame

@[simp]
theorem Callable.lower_rename (callable : Callable) (naming : Naming) :
    (callable.rename relabel).lower naming =
      (callable.lower naming).mapError (Failure.rename relabel) := by
  have params := (Frame.start naming : Frame Literal Statement).declareAll_rename relabel
    callable.params
  rw [Frame.start_rename] at params
  simp only [Callable.lower, Header.lower, Callable.rename, params, Frame.lowerAll_rename]
  cases ((Frame.start naming).declareAll callable.params).2.lowerAll (callable.body.map .ok) <;> rfl

namespace Compiler

/-- Under new identities for its variables and labels, a callable is lowered to the same code and
leaves the same behind. If it cannot be lowered, the failure is the same, except that a missing
variable goes by its new identity. -/
theorem lower_is_blind_to_identity (compiler : Compiler) (callable : Callable) :
    compiler.lower (callable.rename relabel) =
      ((compiler.lower callable).1.mapError (Failure.rename relabel),
        (compiler.lower callable).2) := by
  have name_eq : (callable.rename relabel).name = callable.name := rfl
  rw [lower, lower, name_eq, Callable.lower_rename]
  cases compiler.cache.get? callable.name with
  | some code => rfl
  | none => cases callable.lower compiler.naming <;> rfl

/-- Two variables and two labels swap their identities. -/
def crossing : Renaming where
  onVariable := Equiv.swap (.ofWord 1) (.ofWord 2)
  onLabel := Equiv.swap ⟨3⟩ ⟨4⟩
  onVariable_injective := Equiv.injective _
  onLabel_injective := Equiv.injective _
  onVariable_receiver := Equiv.swap_apply_of_ne_of_ne (by decide) (by decide)

/-- A callable in which the two variables and the two labels are not treated alike. -/
def doubling : Callable where
  kind := .function
  name := "f"
  params := [.ofWord 1]
  body := [.declare (.ofWord 2), .label ⟨3⟩, .binary .add (.ofWord 2) (.ofWord 1) (.ofWord 1),
    .jumpIfFalse (.ofWord 2) ⟨4⟩, .jump ⟨3⟩, .label ⟨4⟩, .ret (some (.ofWord 2))]

/-- The code of that callable. -/
def doublingCode : String :=
  "function f($var2) " ++ Script.braced
    ("\nlabel_1:\n$var3 = $var2 + $var2;\nif (!$var3) " ++ Script.braced " goto label_2; " ++
      "\ngoto label_1;\nlabel_2:\nreturn $var3;\n")

/-- A callable that lacks one of the two variables. -/
def lacking : Callable where
  kind := .function
  name := "g"
  params := [.ofWord 2]
  body := [.assign (.ofWord 2) (.ofWord 1)]

theorem crossing_goes_unnoticed :
    doubling.rename crossing ≠ doubling ∧
      (({} : Compiler).lower doubling).1 = .ok doublingCode ∧
      (({} : Compiler).lower (doubling.rename crossing)).1 = .ok doublingCode ∧
      (({} : Compiler).lower lacking).1 = .error (.unbound (.ofWord 1)) ∧
      (({} : Compiler).lower (lacking.rename crossing)).1 = .error (.unbound (.ofWord 2)) := by
  have lowered : (({} : Compiler).lower doubling).1 = .ok doublingCode := by decide +kernel
  have failed : (({} : Compiler).lower lacking).1 = .error (.unbound (.ofWord 1)) := by
    decide +kernel
  refine ⟨by decide +kernel, lowered, ?_, failed, ?_⟩
  · rw [lower_is_blind_to_identity, lowered]
    rfl
  · rw [lower_is_blind_to_identity, failed]
    exact congrArg (Except.error ∘ Failure.unbound) (Equiv.swap_apply_left _ _)

end Compiler

end ScriptLowering
