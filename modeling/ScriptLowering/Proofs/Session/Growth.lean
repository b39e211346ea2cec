import ScriptLowering.Proofs.Compiler.Remembering

/-!
# The caches of sessions

What holds of one request holds of the cache of every compiler of a session: one step lemma says
what a turn does to the cache of any compiler, whoever takes the turn, and induction on the turns
says what a session does.
-/

namespace ScriptLowering

namespace CachePool

variable {pool : CachePool} {user other count : Nat}

/-- Two users have one cache. -/
def Shares : CachePool → Nat → Nat → Prop
  | .separate _, user, other => user = other
  | .shared _, _, _ => True

instance decidableShares (pool : CachePool) (user other : Nat) :
    Decidable (pool.Shares user other) :=
  match pool with
  | .separate _ => inferInstanceAs (Decidable (user = other))
  | .shared _ => inferInstanceAs (Decidable True)

/-- There is a cache for each of so many users. -/
def Serves : CachePool → Nat → Prop
  | .separate caches, count => caches.length = count
  | .shared _, _ => True

@[simp]
theorem shares_set {first second : Nat} {cache : Cache} :
    (pool.set user cache).Shares first second ↔ pool.Shares first second := by
  cases pool <;> rfl

@[simp]
theorem serves_set {cache : Cache} :
    (pool.set user cache).Serves count ↔ pool.Serves count := by
  cases pool with
  | separate caches => simp [set, Serves]
  | shared _ => rfl

theorem get_of_shares (shares : pool.Shares user other) : pool.get other = pool.get user := by
  cases pool with
  | separate _ => rw [show user = other from shares]
  | shared _ => rfl

theorem get_set (serves : pool.Serves count) (known : user < count) (cache : Cache) :
    (pool.set user cache).get other = if pool.Shares user other then cache else pool.get other := by
  cases pool with
  | shared _ => simp [set, get, Shares]
  | separate caches =>
      have length_eq : caches.length = count := serves
      by_cases same : user = other
      · subst same
        simp [set, get, Shares, length_eq, known]
      · simp [set, get, Shares, same]

theorem set_get (serves : pool.Serves count) (known : user < count) :
    pool.set user (pool.get user) = pool := by
  cases pool with
  | shared _ => rfl
  | separate caches =>
      have bound : user < caches.length := by
        rwa [show caches.length = count from serves]
      simp [set, get, bound]

end CachePool

/-- One compiler of a session is given one request. -/
structure Turn where
  /-- The compiler. -/
  user : Nat
  /-- The request. -/
  request : Request

namespace Session

/-- The cache of a compiler. -/
def cache (session : Session) (user : Nat) : Cache :=
  (session.compiler user).cache

/-- The naming of a compiler. -/
def naming (session : Session) (user : Nat) : Naming :=
  (session.compiler user).naming

/-- Take turns in order. -/
def run (session : Session) : List Turn → List (Except Failure String) × Session
  | [] => ([], session)
  | turn :: rest =>
      let (outcome, next) := session.answer turn.user turn.request
      let (outcomes, final) := next.run rest
      (outcome :: outcomes, final)

/-- The code that is handed out in turns by the compilers that share the cache of a user. -/
def deliveries (session : Session) (user : Nat) : List Turn → List (String × String)
  | [] => []
  | turn :: rest =>
      (if session.caches.Shares turn.user user then
        (session.compiler turn.user).deliveries turn.request
      else []) ++ (session.answer turn.user turn.request).2.deliveries user rest

/-- Nothing is in the caches yet. -/
def Fresh (session : Session) : Prop :=
  session.caches = .shared .empty ∨
    session.caches = .separate (session.namings.map fun _ => .empty)

/-- All turns go to compilers of the session. -/
def Staffs (session : Session) (turns : List Turn) : Prop :=
  ∀ turn ∈ turns, turn.user < session.namings.length

/-- Each compiler has a cache that keeps its entries. -/
structure Equipped (session : Session) : Prop where
  serves : session.caches.Serves session.namings.length
  keeps : ∀ user < session.namings.length, (session.cache user).Keeps

variable {session : Session} {user other : Nat} {request : Request} {turns : List Turn}

theorem Fresh.cache_eq (fresh : session.Fresh) (user : Nat) : session.cache user = .empty := by
  change session.caches.get user = .empty
  rcases fresh with shared | separate
  · rw [shared]
    rfl
  · rw [separate, CachePool.get, List.getElem?_map]
    cases session.namings[user]? <;> rfl

theorem Fresh.equipped (fresh : session.Fresh) : session.Equipped where
  serves := by
    rcases fresh with shared | separate
    · rw [shared]
      trivial
    · rw [separate]
      exact List.length_map _
  keeps user _ := by
    rw [fresh.cache_eq]
    exact Cache.keeps_empty

@[simp]
theorem namings_answer :
    (session.answer user request).2.namings = session.namings :=
  rfl

@[simp]
theorem shares_answer {first second : Nat} :
    (session.answer user request).2.caches.Shares first second ↔
      session.caches.Shares first second :=
  CachePool.shares_set

theorem cache_of_shares (shares : session.caches.Shares user other) :
    session.cache other = session.cache user :=
  CachePool.get_of_shares shares

namespace Equipped

theorem cache_answer (equipped : session.Equipped) (known : user < session.namings.length)
    (request : Request) (other : Nat) :
    (session.answer user request).2.cache other =
      if session.caches.Shares user other then
        ((session.compiler user).answer request).2.cache
      else session.cache other :=
  CachePool.get_set equipped.serves known _

/-- A turn that leaves its compiler as it is leaves the session as it is. -/
theorem answer_eq_self (equipped : session.Equipped) (known : user < session.namings.length)
    (unchanged : ((session.compiler user).answer request).2 = session.compiler user) :
    (session.answer user request).2 = session := by
  have caches_eq := CachePool.set_get equipped.serves known
  change { session with
    caches := session.caches.set user ((session.compiler user).answer request).2.cache } = session
  rw [unchanged]
  exact congrArg (Session.mk session.namings) caches_eq

theorem answer_grows (equipped : session.Equipped) (known : user < session.namings.length)
    (request : Request) (other : Nat) :
    Cache.Grows
      (fun name code => session.caches.Shares user other ∧
        (name, code) ∈ (session.compiler user).deliveries request ∧
        request.Produces (session.naming user) name code)
      (session.cache other) ((session.answer user request).2.cache other) := by
  rw [equipped.cache_answer known]
  split
  · rename_i shares
    rw [cache_of_shares shares]
    exact ((session.compiler user).answer_grows request).mono fun _ _ made => ⟨shares, made⟩
  · exact .refl

theorem answer (equipped : session.Equipped) (known : user < session.namings.length)
    (request : Request) : (session.answer user request).2.Equipped where
  serves := CachePool.serves_set.mpr equipped.serves
  keeps other inside :=
    (equipped.answer_grows known request other).keeps (equipped.keeps other inside)

theorem get?_answer (equipped : session.Equipped) (known : user < session.namings.length)
    {name code : String} :
    ((session.answer user request).2.cache other).get? name = some code ↔
      (session.cache other).get? name = some code ∨
        session.caches.Shares user other ∧
          (name, code) ∈ (session.compiler user).deliveries request := by
  rw [equipped.cache_answer known]
  split
  · rename_i shares
    rw [cache_of_shares shares, Compiler.get?_answer (equipped.keeps user known)]
    simp only [shares, true_and]
    rfl
  · rename_i apart
    simp only [apart, false_and, or_false]

end Equipped

theorem Staffs.head {turn : Turn} (staffs : session.Staffs (turn :: turns)) :
    turn.user < session.namings.length :=
  staffs turn List.mem_cons_self

theorem Staffs.tail {turn : Turn} (staffs : session.Staffs (turn :: turns)) :
    (session.answer turn.user turn.request).2.Staffs turns :=
  fun later listed => staffs later (List.mem_cons_of_mem _ listed)

theorem run_cons (session : Session) (turn : Turn) (turns : List Turn) :
    session.run (turn :: turns) =
      ((session.answer turn.user turn.request).1 ::
          ((session.answer turn.user turn.request).2.run turns).1,
        ((session.answer turn.user turn.request).2.run turns).2) :=
  rfl

@[simp]
theorem namings_run (session : Session) (turns : List Turn) :
    (session.run turns).2.namings = session.namings := by
  induction turns generalizing session with
  | nil => rfl
  | cons turn turns induction => simp [run_cons, induction]

@[simp]
theorem shares_run (session : Session) (turns : List Turn) :
    (session.run turns).2.caches.Shares user other ↔ session.caches.Shares user other := by
  induction turns generalizing session with
  | nil => rfl
  | cons turn turns induction => simp [run_cons, induction]

namespace Equipped

theorem run (equipped : session.Equipped) (staffs : session.Staffs turns) :
    (session.run turns).2.Equipped := by
  induction turns generalizing session with
  | nil => exact equipped
  | cons turn turns induction =>
      exact induction (equipped.answer staffs.head turn.request) staffs.tail

/-- A session makes every cache grow, by code that a callable submitted to a compiler with that
cache is lowered to. -/
theorem run_grows (equipped : session.Equipped) (staffs : session.Staffs turns) (user : Nat) :
    Cache.Grows
      (fun name code => ∃ turn ∈ turns, session.caches.Shares turn.user user ∧
        turn.request.Produces (session.naming turn.user) name code)
      (session.cache user) ((session.run turns).2.cache user) := by
  induction turns generalizing session with
  | nil => exact .refl
  | cons turn turns induction =>
      have first := equipped.answer_grows staffs.head turn.request user
      have later := induction (equipped.answer staffs.head turn.request) staffs.tail
      refine (first.mono ?_).trans (later.mono ?_)
      · rintro name code ⟨shares, -, produced⟩
        exact ⟨turn, List.mem_cons_self, shares, produced⟩
      · rintro name code ⟨other, listed, shares, produced⟩
        exact ⟨other, List.mem_cons_of_mem _ listed, shares_answer.mp shares, produced⟩

/-- After some turns a cache holds what it held before and what has been handed out. -/
theorem get?_run (equipped : session.Equipped) (staffs : session.Staffs turns)
    {name code : String} :
    ((session.run turns).2.cache user).get? name = some code ↔
      (session.cache user).get? name = some code ∨
        (name, code) ∈ session.deliveries user turns := by
  induction turns generalizing session with
  | nil => simp [Session.run, deliveries]
  | cons turn turns induction =>
      rw [run_cons, induction (equipped.answer staffs.head turn.request) staffs.tail,
        equipped.get?_answer staffs.head, deliveries, List.mem_append, or_assoc]
      by_cases shares : session.caches.Shares turn.user user <;> simp [shares]

/-- A request for one callable that fails leaves the session as it is. -/
theorem answer_of_error (equipped : session.Equipped) (known : user < session.namings.length)
    (single : ∀ decl, request ≠ .classDecl decl) {failure : Failure}
    (refused : (session.answer user request).1 = .error failure) :
    (session.answer user request).2 = session :=
  equipped.answer_eq_self known
    (((session.compiler user).answers_answer request single).eq_of_error refused)

/-- A request for one callable that succeeds leaves its code at the declared name and nothing else
behind. -/
theorem answer_of_ok (equipped : session.Equipped) (known : user < session.namings.length)
    (single : ∀ decl, request ≠ .classDecl decl) {code : String}
    (accepted : (session.answer user request).1 = .ok code) :
    ∃ name, request.declaredName? = some name ∧ ∀ other entry,
      ((session.answer user request).2.cache other).get? entry =
        if session.caches.Shares user other ∧ entry = name then some code
        else (session.cache other).get? entry := by
  obtain ⟨name, declared, stored⟩ :=
    ((session.compiler user).answers_answer request single).of_ok (equipped.keeps user known)
      accepted
  refine ⟨name, declared, fun other entry => ?_⟩
  rw [equipped.cache_answer known]
  by_cases shares : session.caches.Shares user other
  · rw [cache_of_shares shares, if_pos shares, stored]
    simp only [shares, true_and]
    rfl
  · simp only [shares, false_and, if_false]

/-- A request for one callable whose declared name is known is answered with the code of that
name. -/
theorem answer_of_known (equipped : session.Equipped) (known : user < session.namings.length)
    {name code : String} (declared : request.declaredName? = some name)
    (cached : (session.cache user).get? name = some code) :
    session.answer user request = (.ok code, session) := by
  have single : ∀ decl, request ≠ .classDecl decl := by
    rintro decl rfl
    cases declared
  have answered :=
    ((session.compiler user).answers_answer request single).eq_of_known declared cached
  have outcome : ((session.compiler user).answer request).1 = .ok code := by rw [answered]
  exact Prod.ext outcome (equipped.answer_eq_self known (by rw [answered]))

end Equipped

/-- What the compilers of a session remember, whether each has a cache or all share one, after any
turns. No later turn changes or removes an entry. Every entry is the code that a callable of its
name is lowered to, submitted earlier to a compiler with that cache and under the naming of that
compiler. A request for one callable that fails changes nothing. One that succeeds leaves its code
at the declared name, in the caches that the compiler shares, and every other entry as it is. The
declared name that is looked up is the name of the header under which code is kept. A request for
one callable whose declared name is known is answered with what is known, whatever else it says.
The size of a cache is the number of names in it, and these are the names for which code has been
handed out. -/
theorem caches_remember {now : Session} {past : List Turn} (fresh : session.Fresh)
    (staffs : session.Staffs past) (reached : (session.run past).2 = now)
    (known : user < session.namings.length) :
    (∀ future, now.Staffs future → ∀ name code, (now.cache user).get? name = some code →
      ((now.run future).2.cache user).get? name = some code) ∧
    (∀ name code, (now.cache user).get? name = some code →
      ∃ turn ∈ past, session.caches.Shares turn.user user ∧
        turn.request.Produces (session.naming turn.user) name code) ∧
    (∀ request, (∀ decl, request ≠ .classDecl decl) →
      (∀ failure, (now.answer user request).1 = .error failure →
        (now.answer user request).2 = now) ∧
      (∀ code, (now.answer user request).1 = .ok code →
        ∃ name, request.declaredName? = some name ∧ ∀ other entry,
          ((now.answer user request).2.cache other).get? entry =
            if session.caches.Shares user other ∧ entry = name then some code
            else (now.cache other).get? entry) ∧
      (∀ name code, request.declaredName? = some name →
        (now.cache user).get? name = some code → now.answer user request = (.ok code, now))) ∧
    (∀ value opening, Callable.openTuples value = .ok opening →
      (Request.tuples value).declaredName? = some opening.header.name) ∧
    (now.cache user).size = {name | ∃ code, (now.cache user).get? name = some code}.ncard ∧
    (∀ name, (now.cache user).contains name ↔
      ∃ code, (name, code) ∈ session.deliveries user past) ∧
    ((now.cache user).isEmpty ↔ session.deliveries user past = []) := by
  subst reached
  have equipped := fresh.equipped.run staffs
  have known_now : user < (session.run past).2.namings.length := by simpa
  have keeps := equipped.keeps user known_now
  have held : ∀ name code, ((session.run past).2.cache user).get? name = some code ↔
      (name, code) ∈ session.deliveries user past := by
    intro name code
    rw [fresh.equipped.get?_run staffs, fresh.cache_eq]
    simp [Cache.empty, Cache.get?]
  refine ⟨?_, ?_, ?_, ?_, keeps.size_eq, ?_, ?_⟩
  · intro future later name code stands
    exact (equipped.run_grows later user).get?_of_get? keeps stands
  · intro name code stands
    rcases (fresh.equipped.run_grows staffs user).of_get? stands with stood | produced
    · rw [fresh.cache_eq] at stood
      cases stood
    · exact produced
  · intro request single
    refine ⟨fun failure => equipped.answer_of_error known_now single, ?_,
      fun name code => equipped.answer_of_known known_now⟩
    intro code accepted
    obtain ⟨name, declared, stored⟩ := equipped.answer_of_ok known_now single accepted
    exact ⟨name, declared, by simpa using stored⟩
  · intro value opening opened
    exact Request.declaredName?_of_declaredName (Callable.declaredName_of_openTuples opened)
  · intro name
    rw [Cache.contains, Option.isSome_iff_exists]
    simp only [held]
  · rw [keeps.isEmpty_iff, List.eq_nil_iff_forall_not_mem]
    simp only [Option.eq_none_iff_forall_ne_some, ne_eq, held, Prod.forall]

/-- A class whose first method can be lowered and whose second method cannot. -/
def halfSound : ClassDecl where
  name := "Half"
  parent := none
  interfaces := []
  properties := []
  methods :=
    [⟨⟨.pub, false, false⟩, ⟨⟨.function, "whole", [.ofWord 0]⟩, [.ret (some (.ofWord 0))]⟩⟩,
      ⟨⟨.priv, true, false⟩, ⟨⟨.function, "broken", []⟩, [.ret (some (.ofWord 0))]⟩⟩]

/-- Two compilers with one cache that name things differently. -/
def pair : Session where
  namings := [{}, { variablePrefix := "v", receiver := "self", labelPrefix := "l" }]
  caches := .shared .empty

/-- The class fails and its first method stays known. The other compiler answers every request for
a callable of that name with it, in the naming of the first. -/
theorem pair_remembers :
    pair.Fresh ∧ pair.Staffs [⟨0, .classDecl halfSound⟩] ∧
      (pair.run [⟨0, .classDecl halfSound⟩]).1 = [.error (.unbound (.ofWord 0))] ∧
      ∀ value, Callable.declaredName value = .ok "whole" →
        ((pair.run [⟨0, .classDecl halfSound⟩]).2.answer 1 (.tuples value)).1 =
          .ok ("function whole($var2) " ++ Script.braced "\nreturn $var2;\n") := by
  have fresh : pair.Fresh := .inl rfl
  have staffs : pair.Staffs [⟨0, .classDecl halfSound⟩] := by simp [Staffs, pair]
  have known : 1 < pair.namings.length := by decide
  have cached : ((pair.run [⟨0, .classDecl halfSound⟩]).2.cache 1).get? "whole" =
      some ("function whole($var2) " ++ Script.braced "\nreturn $var2;\n") := by decide +kernel
  obtain ⟨-, -, answers, -⟩ := caches_remember fresh staffs rfl known
  refine ⟨fresh, staffs, by rfl, fun value declared => ?_⟩
  obtain ⟨-, -, answered⟩ := answers (.tuples value) (by simp)
  rw [answered _ _ (Request.declaredName?_of_declaredName declared) cached]

end Session

end ScriptLowering
