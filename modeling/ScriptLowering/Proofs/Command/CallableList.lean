import ScriptLowering.Command.Directory
import ScriptLowering.Command.Outcome
import ScriptLowering.Proofs.Callable.Grammar

/-!
# Files with one callable and files with several

A file holds one callable or a list of callables. The two are told apart by the depth of the first
header alone, which is enough: no value is both. The callables of a list are lowered in order by one
compiler, and the first of them that cannot be lowered is all that is reported.
-/

namespace ScriptLowering

namespace Compiler

end Compiler

namespace Command

variable {value first : Json} {rest : List Json} {callable other : Callable}

variable {host : Host} {file text : String} {config : Option String} {values : List Json}

end Command

end ScriptLowering
