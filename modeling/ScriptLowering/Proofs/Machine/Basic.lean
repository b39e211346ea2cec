import ScriptLowering.Callable.Basic
import ScriptLowering.Literal.Payload
import ScriptLowering.Script.Statement
import Mathlib.Logic.Function.Basic

/-!
# Machines

A callable and a script are both run by a machine with a program position and values of
variables. The machine of callables has numbered variables and numbered labels, the machine of
scripts has names for both and reads inlined constants where they stand. What operations mean is
a parameter of both machines.
-/

namespace ScriptLowering

universe u v

/-- A reading of the operations on values of type `ν`. Whatever else an operation reads or changes
is a world of type `ω`, and an operation may have no result at all. -/
structure Interpretation (ν : Type u) (ω : Type v) where
  /-- The value of a constant. -/
  literal : Literal → ν
  /-- Whether a value counts as true. -/
  truthy : ν → Bool
  /-- Reading a property of an object. -/
  fetch : ν → String → ω → Option (ν × ω)
  /-- Applying a unary operator. -/
  unary : UnaryOp → ν → ω → Option (ν × ω)
  /-- Applying a binary operator. -/
  binary : BinaryOp → ν → ν → ω → Option (ν × ω)
  /-- Calling a function. -/
  call : String → List ν → ω → Option (ν × ω)

/-- A configuration of a machine whose variables are of type `ι`. -/
inductive Config (ι : Type) (ν : Type u) (ω : Type v) where
  /-- The machine is at a position of its program. A variable may have no value yet. -/
  | running (position : Nat) (values : ι → Option ν) (world : ω)
  /-- The machine has returned. -/
  | returned (value : Option ν) (world : ω)

namespace Config

variable {ι : Type} {ν : Type u} {ω : Type v}

/-- The start of a program that is called with a receiver and arguments. -/
def entry [DecidableEq ι] (self : ι) (params : List ι) (receiver : Option ν)
    (arguments : List ν) (world : ω) : Config ι ν ω :=
  .running 0
    ((params.zip arguments).foldl
      (fun values passed => Function.update values passed.1 (some passed.2))
      (Function.update (fun _ => none) self receiver))
    world

/-- Go on behind an operation, of which the result is stored in a variable. -/
def store [DecidableEq ι] (position : Nat) (values : ι → Option ν) (result : ι)
    (outcome : Option (ν × ω)) : Option (Config ι ν ω) :=
  outcome.map fun (value, world) =>
    .running (position + 1) (Function.update values result (some value)) world

/-- Go on at a position, if there is one. -/
def jump (destination : Option Nat) (values : ι → Option ν) (world : ω) :
    Option (Config ι ν ω) :=
  destination.map fun position => .running position values world

/-- Make a number of steps, none of which may fail. -/
def run (step : Config ι ν ω → Option (Config ι ν ω)) :
    Nat → Config ι ν ω → Option (Config ι ν ω)
  | 0, config => some config
  | steps + 1, config => (step config).bind (run step steps)

theorem run_add (step : Config ι ν ω → Option (Config ι ν ω)) (first second : Nat)
    (config : Config ι ν ω) :
    run step (first + second) config = (run step first config).bind (run step second) := by
  induction first generalizing config with
  | zero => simp [run]
  | succ first induction =>
      simp only [Nat.succ_add, run]
      cases step config with
      | none => rfl
      | some next => exact induction next

end Config

variable {ν : Type u} {ω : Type v} (interpretation : Interpretation ν ω)

/-- Execute an instruction at a position, where labels have the given positions. -/
def Instr.execute (destination : Label → Option Nat) (position : Nat)
    (values : Variable → Option ν) (world : ω) : Instr → Option (Config Variable ν ω)
  | .const result type payload =>
      (Literal.ofConst type payload).toOption.bind fun literal =>
        Config.store position values result (some (interpretation.literal literal, world))
  | .assign result source =>
      (values source).bind fun value =>
        Config.store position values result (some (value, world))
  | .fetch result object property =>
      (values object).bind fun value =>
        Config.store position values result (interpretation.fetch value property world)
  | .unary op result operand =>
      (values operand).bind fun value =>
        Config.store position values result (interpretation.unary op value world)
  | .binary op result left right =>
      (values left).bind fun first => (values right).bind fun second =>
        Config.store position values result (interpretation.binary op first second world)
  | .call result callee arguments =>
      (arguments.mapM values).bind fun passed =>
        Config.store position values result (interpretation.call callee passed world)
  | .jump target => Config.jump (destination target) values world
  | .jumpIfFalse condition target =>
      (values condition).bind fun value =>
        if interpretation.truthy value then some (.running (position + 1) values world)
        else Config.jump (destination target) values world
  | .ret none => some (.returned none world)
  | .ret (some result) => (values result).map fun value => .returned (some value) world
  | .declare _ | .free _ | .label _ => some (.running (position + 1) values world)
  | .recurse => none

/-- One step of a callable. A jump leads to the mark of its label. -/
def Callable.step (callable : Callable) :
    Config Variable ν ω → Option (Config Variable ν ω)
  | .running position values world =>
      callable.body[position]?.bind fun instr =>
        instr.execute interpretation (fun label => callable.body.idxOf? (.label label)) position
          values world
  | .returned _ _ => none

namespace Operand

/-- The value of an operand: that of a name, or that of an inlined constant. -/
def value? (values : String → Option ν) : Operand → Option ν
  | .name text => values text
  | .literal value => some (interpretation.literal value)

/-- Go on behind an operation, of which the result is stored. Nothing is stored in a constant. -/
def store (position : Nat) (values : String → Option ν) (outcome : Option (ν × ω)) :
    Operand → Option (Config String ν ω)
  | .name text => Config.store position values text outcome
  | .literal _ => none

end Operand

namespace Script

/-- Execute a statement at a position, where labels have the given positions. -/
def execute (destination : String → Option Nat) (position : Nat)
    (values : String → Option ν) (world : ω) : Statement → Option (Config String ν ω)
  | .assign result source =>
      (source.value? interpretation values).bind fun value =>
        result.store position values (some (value, world))
  | .fetch result object property =>
      (object.value? interpretation values).bind fun value =>
        result.store position values (interpretation.fetch value property world)
  | .unary op result operand =>
      (operand.value? interpretation values).bind fun value =>
        result.store position values (interpretation.unary op value world)
  | .binary op result left right =>
      (left.value? interpretation values).bind fun first =>
        (right.value? interpretation values).bind fun second =>
          result.store position values (interpretation.binary op first second world)
  | .call result callee arguments =>
      (arguments.mapM (Operand.value? interpretation values)).bind fun passed =>
        result.store position values (interpretation.call callee passed world)
  | .jump target => Config.jump (destination target) values world
  | .jumpIfFalse condition target =>
      (condition.value? interpretation values).bind fun value =>
        if interpretation.truthy value then some (.running (position + 1) values world)
        else Config.jump (destination target) values world
  | .ret none => some (.returned none world)
  | .ret (some result) =>
      (result.value? interpretation values).map fun value => .returned (some value) world
  | .label _ => some (.running (position + 1) values world)

/-- One step of a script. A jump leads to the mark of its label. -/
def step (statements : List Statement) : Config String ν ω → Option (Config String ν ω)
  | .running position values world =>
      statements[position]?.bind fun statement =>
        execute interpretation (fun label => statements.idxOf? (.label label)) position values
          world statement
  | .returned _ _ => none

end Script

end ScriptLowering
