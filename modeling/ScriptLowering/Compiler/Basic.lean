import ScriptLowering.Callable.Decoder
import ScriptLowering.Compiler.Cache
import ScriptLowering.Frame.Lower

/-!
# Compilers

A compiler lowers callables under one naming and remembers what it has lowered. A callable whose
name is known is not lowered again, and only successes are remembered.
-/

namespace ScriptLowering

/-- A naming with a cache of what has been lowered under it. -/
structure Compiler where
  /-- The naming of lowered code. -/
  naming : Naming := {}
  /-- What has been lowered. -/
  cache : Cache := .empty

namespace Compiler

/-- Remember a success under a name. -/
def remember (compiler : Compiler) (name : String) (outcome : Except Failure String) :
    Except Failure String × Compiler :=
  match outcome with
  | .ok code => (.ok code, { compiler with cache := compiler.cache.insert name code })
  | .error failure => (.error failure, compiler)

/-- Lower a callable. -/
def lower (compiler : Compiler) (callable : Callable) : Except Failure String × Compiler :=
  match compiler.cache.get? callable.name with
  | some code => (.ok code, compiler)
  | none => compiler.remember callable.name (callable.lower compiler.naming)

/-- Lower a callable in tuple form while it is read. Of one whose name is known, only the name is
read. -/
def lowerTuples (compiler : Compiler) (value : Json) : Except Failure String × Compiler :=
  match Callable.declaredName value with
  | .error failure => (.error failure, compiler)
  | .ok name =>
      match compiler.cache.get? name with
      | some code => (.ok code, compiler)
      | none =>
          match Callable.openTuples value with
          | .error failure => (.error failure, compiler)
          | .ok opening =>
              compiler.remember opening.header.name
                (opening.header.lower compiler.naming opening.instrs)

end Compiler

end ScriptLowering
