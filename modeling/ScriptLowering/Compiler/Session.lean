import ScriptLowering.ClassDecl.Decoder
import ScriptLowering.ClassDecl.Lower

/-!
# Sessions

Several compilers at work one request at a time, each with a cache of its own or all with one
cache in common.
-/

namespace ScriptLowering

/-- A request to a compiler. -/
inductive Request where
  /-- Lower a callable. -/
  | callable (callable : Callable)
  /-- Lower a callable in tuple form while it is read. -/
  | tuples (value : Json)
  /-- Lower a class. -/
  | classDecl (decl : ClassDecl)

namespace Compiler

/-- Answer a request. -/
def answer (compiler : Compiler) : Request → Except Failure String × Compiler
  | .callable callable => compiler.lower callable
  | .tuples value => compiler.lowerTuples value
  | .classDecl decl => compiler.lowerClass decl

end Compiler

/-- Compilers at work, numbered from zero. -/
structure Session where
  /-- The naming of each compiler. -/
  namings : List Naming
  /-- The caches of the compilers. -/
  caches : CachePool

namespace Session

/-- A compiler of the session with its present cache. -/
def compiler (session : Session) (user : Nat) : Compiler where
  naming := session.namings[user]?.getD {}
  cache := session.caches.get user

/-- Have a compiler answer a request. -/
def answer (session : Session) (user : Nat) (request : Request) :
    Except Failure String × Session :=
  let (outcome, compiler) := (session.compiler user).answer request
  (outcome, { session with caches := session.caches.set user compiler.cache })

/-- Put code into the cache that all compilers share, if there is one. -/
def insertShared (session : Session) (name code : String) : Session :=
  match session.caches with
  | .shared cache => { session with caches := .shared (cache.insert name code) }
  | .separate _ => session

end Session

end ScriptLowering
