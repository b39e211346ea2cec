/-!
# Caches

The lowered code of callables, by declared name. A cache either keeps what it is given or keeps
nothing and counts. Several users may share one cache.
-/

namespace ScriptLowering

/-- A cache of lowered code. -/
inductive Cache where
  /-- A cache that keeps its entries, one for each name. -/
  | keeping (entries : List (String × String))
  /-- A cache that keeps nothing and counts the insertions. -/
  | forgetful (insertions : Nat)

namespace Cache

/-- The cache that keeps its entries and has none yet. -/
def empty : Cache := .keeping []

/-- Put code at a name of a list of entries, replacing what is there. -/
def insertEntry (name code : String) : List (String × String) → List (String × String)
  | [] => [(name, code)]
  | (other, held) :: rest =>
      if name = other then (name, code) :: rest else (other, held) :: insertEntry name code rest

/-- The code at a name. -/
def get? (cache : Cache) (name : String) : Option String :=
  match cache with
  | .keeping entries => entries.lookup name
  | .forgetful _ => none

/-- Put code at a name. -/
def insert (cache : Cache) (name code : String) : Cache :=
  match cache with
  | .keeping entries => .keeping (insertEntry name code entries)
  | .forgetful insertions => .forgetful (insertions + 1)

/-- There is code at a name. -/
def contains (cache : Cache) (name : String) : Bool :=
  (cache.get? name).isSome

/-- The number of entries, or of insertions into a cache that keeps none. -/
def size : Cache → Nat
  | .keeping entries => entries.length
  | .forgetful insertions => insertions

/-- Nothing has been put into the cache. -/
def isEmpty (cache : Cache) : Bool :=
  cache.size == 0

end Cache

/-- The caches of several users, who are numbered from zero. -/
inductive CachePool where
  /-- Each user has a cache. -/
  | separate (caches : List Cache)
  /-- All users share one cache. -/
  | shared (cache : Cache)

namespace CachePool

/-- The cache of a user. -/
def get (pool : CachePool) (user : Nat) : Cache :=
  match pool with
  | .separate caches => caches[user]?.getD .empty
  | .shared cache => cache

/-- Change the cache of a user. -/
def set (pool : CachePool) (user : Nat) (cache : Cache) : CachePool :=
  match pool with
  | .separate caches => .separate (caches.set user cache)
  | .shared _ => .shared cache

end CachePool

end ScriptLowering
