import ScriptLowering.Proofs.Session.Growth

/-!
# Sessions in which names identify callables

If no two callables of a session differ under one name, then it does not show that compilers
remember. The invariant is `Compiler.Faithful`: whatever is known is what a callable of the session
with that name is lowered to. A compiler that keeps nothing is faithful too, so one comparison of
two faithful compilers covers both sides, and the answers to a request depend on the request alone.
-/

namespace ScriptLowering

theorem Callable.lower_eq_of_name_eq {left right : Callable} (naming : Naming)
    (name_eq : left.name = right.name) (params_eq : left.params = right.params)
    (body_eq : left.body = right.body) : left.lower naming = right.lower naming := by
  rw [lower, lower, Header.lower, Header.lower, name_eq, params_eq, body_eq]

namespace Request

/-- The name that a value declares which cannot be read. -/
def unreadName? : Request → Option String
  | .tuples value =>
      match Callable.decode value with
      | .ok _ => none
      | .error _ => (Callable.declaredName value).toOption
  | _ => none

/-- The callables of a request are among given ones, and the name of a value that cannot be read
belongs to none of them. -/
structure Fits (request : Request) (callables : List Callable) : Prop where
  submitted : ∀ callable ∈ request.callables, callable ∈ callables
  unread : ∀ name, request.unreadName? = some name → ∀ callable ∈ callables, callable.name ≠ name

end Request

/-- Callables of one name have the same parameters and the same body. -/
def NamesIdentify (callables : List Callable) : Prop :=
  ∀ left ∈ callables, ∀ right ∈ callables, left.name = right.name →
    left.params = right.params ∧ left.body = right.body

namespace Compiler

/-- All that a compiler knows is what given callables are lowered to under a naming, which is its
own. -/
structure Faithful (compiler : Compiler) (naming : Naming) (callables : List Callable) : Prop where
  naming_eq : compiler.naming = naming
  known : ∀ name code, compiler.cache.get? name = some code →
    ∃ callable ∈ callables, callable.name = name ∧ callable.lower naming = .ok code

variable {compiler left right : Compiler} {naming : Naming} {callables : List Callable}
  {callable : Callable} {request : Request}

theorem faithful_forgetful (naming : Naming) (insertions : Nat) (callables : List Callable) :
    ({ naming, cache := .forgetful insertions } : Compiler).Faithful naming callables where
  naming_eq := rfl
  known _ _ stands := by cases stands

namespace Faithful

theorem answer (faithful : compiler.Faithful naming callables) (request : Request)
    (submitted : ∀ callable ∈ request.callables, callable ∈ callables) :
    (compiler.answer request).2.Faithful naming callables where
  naming_eq := (compiler.answer_naming request).trans faithful.naming_eq
  known name code stands := by
    rcases (compiler.answer_grows request).of_get? stands with stood | ⟨-, produced⟩
    · exact faithful.known name code stood
    · obtain ⟨callable, listed, named, lowered⟩ := produced
      rw [faithful.naming_eq] at lowered
      exact ⟨callable, submitted callable listed, named, lowered⟩

theorem lower (faithful : compiler.Faithful naming callables) (listed : callable ∈ callables) :
    (compiler.lower callable).2.Faithful naming callables :=
  faithful.answer (.callable callable) (by simpa [Request.callables] using listed)

/-- A callable is answered as if it were lowered anew. -/
theorem lower_fst (faithful : compiler.Faithful naming callables)
    (identify : NamesIdentify callables) (listed : callable ∈ callables) :
    (compiler.lower callable).1 = callable.lower naming := by
  cases cached : compiler.cache.get? callable.name with
  | none => rw [lower_of_uncached cached, remember_fst, faithful.naming_eq]
  | some code =>
      obtain ⟨origin, origin_listed, named, lowered⟩ := faithful.known _ _ cached
      obtain ⟨params_eq, body_eq⟩ := identify origin origin_listed callable listed named
      have same := Callable.lower_eq_of_name_eq naming named params_eq body_eq
      rw [Compiler.lower, cached, ← same, lowered]

theorem get?_of_unread (faithful : compiler.Faithful naming callables)
    (fits : request.Fits callables) {name : String} (unread : request.unreadName? = some name) :
    compiler.cache.get? name = none := by
  refine Option.eq_none_iff_forall_ne_some.mpr fun code cached => ?_
  obtain ⟨callable, listed, named, -⟩ := faithful.known name code cached
  exact fits.unread name unread callable listed named

theorem lowerTuples_fst {value : Json} (faithful : left.Faithful naming callables)
    (other : right.Faithful naming callables) (identify : NamesIdentify callables)
    (fits : (Request.tuples value).Fits callables) :
    (left.lowerTuples value).1 = (right.lowerTuples value).1 := by
  cases decoded : Callable.decode value with
  | ok callable =>
      have listed := fits.submitted callable (Request.mem_callables_of_decode decoded)
      rw [lowerTuples_of_decode decoded, lowerTuples_of_decode decoded,
        faithful.lower_fst identify listed, other.lower_fst identify listed]
  | error failure =>
      cases declared : Callable.declaredName value with
      | error reported => simp only [lowerTuples, declared]
      | ok name =>
          have unread : (Request.tuples value).unreadName? = some name := by
            simp [Request.unreadName?, decoded, declared, Except.toOption]
          simp only [lowerTuples, declared, faithful.get?_of_unread fits unread,
            other.get?_of_unread fits unread]
          cases Callable.openTuples value with
          | error reported => rfl
          | ok opening => simp only [remember_fst, faithful.naming_eq, other.naming_eq]

/-- The methods of a class are answered alike by faithful compilers. -/
theorem lowerMethods_fst {methods : List Method} (faithful : left.Faithful naming callables)
    (other : right.Faithful naming callables) (identify : NamesIdentify callables)
    (listed : ∀ callable ∈ methods.map Method.callable, callable ∈ callables) :
    (left.lowerMethods methods).1 = (right.lowerMethods methods).1 ∧
      left.methodDeliveries methods = right.methodDeliveries methods := by
  induction methods generalizing left right with
  | nil => exact ⟨rfl, rfl⟩
  | cons method rest induction =>
      have here : method.callable ∈ callables := listed _ (by simp)
      have left_outcome := faithful.lower_fst identify here
      have right_outcome := other.lower_fst identify here
      have left_next := faithful.lower here
      have right_next := other.lower here
      rcases left.lowerMethods_cons method rest with
        ⟨failure, next, lowered, stopped, delivered⟩ | ⟨code, next, lowered, continued, delivered⟩
      all_goals
        rcases right.lowerMethods_cons method rest with
          ⟨failure', next', lowered', stopped', delivered'⟩ |
            ⟨code', next', lowered', continued', delivered'⟩
      all_goals
        rw [lowered] at left_outcome left_next
        rw [lowered', ← left_outcome] at right_outcome
        rw [lowered'] at right_next
      · obtain rfl := Except.error.inj right_outcome
        rw [stopped, stopped', delivered, delivered']
        exact ⟨rfl, rfl⟩
      · cases right_outcome
      · cases right_outcome
      · obtain rfl := Except.ok.inj right_outcome
        obtain ⟨outcome_eq, deliveries_eq⟩ := induction left_next right_next
          fun callable member => listed callable (List.mem_cons_of_mem _ member)
        rw [continued, continued', delivered, delivered', outcome_eq, deliveries_eq]
        exact ⟨rfl, rfl⟩

theorem answer_fst (faithful : left.Faithful naming callables)
    (other : right.Faithful naming callables) (identify : NamesIdentify callables)
    (fits : request.Fits callables) : (left.answer request).1 = (right.answer request).1 := by
  cases request with
  | callable submitted =>
      have listed := fits.submitted submitted (by simp [Request.callables])
      exact (faithful.lower_fst identify listed).trans (other.lower_fst identify listed).symm
  | tuples value => exact faithful.lowerTuples_fst other identify fits
  | classDecl decl =>
      obtain ⟨outcome_eq, -⟩ := faithful.lowerMethods_fst other identify fits.submitted
      rw [Compiler.answer, Compiler.answer, lowerClass_eq, lowerClass_eq, outcome_eq]
      cases decl.properties.mapM Property.lower <;> rfl

theorem deliveries_eq (faithful : left.Faithful naming callables)
    (other : right.Faithful naming callables) (identify : NamesIdentify callables)
    (fits : request.Fits callables) : left.deliveries request = right.deliveries request := by
  by_cases single : ∀ decl, request ≠ .classDecl decl
  · rw [deliveries_of_single single, deliveries_of_single single,
      faithful.answer_fst other identify fits]
  · obtain ⟨decl, rfl⟩ : ∃ decl, request = .classDecl decl := by simpa using single
    obtain ⟨-, deliveries_eq⟩ := faithful.lowerMethods_fst other identify fits.submitted
    simp only [deliveries, deliveries_eq]

end Faithful

end Compiler

namespace Session

/-- Compilers of one naming that share a cache, with nothing in it yet. -/
def team (naming : Naming) (count : Nat) : Session where
  namings := List.replicate count naming
  caches := .shared .empty

/-- The callables that are submitted in turns. -/
def callables (turns : List Turn) : List Callable :=
  turns.flatMap fun turn => turn.request.callables

/-- All compilers of a session are faithful to given callables. -/
def Faithful (session : Session) (naming : Naming) (callables : List Callable) : Prop :=
  ∀ user < session.namings.length, (session.compiler user).Faithful naming callables

variable {session : Session} {naming : Naming} {count : Nat} {turns : List Turn}
  {callables : List Callable}

theorem faithful_team (naming : Naming) (count : Nat) (callables : List Callable) :
    (team naming count).Faithful naming callables := by
  intro user known
  refine ⟨?_, fun name code stands => by cases stands⟩
  simp_all [compiler, team]

theorem Faithful.answer (faithful : session.Faithful naming callables)
    (equipped : session.Equipped) {turn : Turn} (known : turn.user < session.namings.length)
    (submitted : ∀ callable ∈ turn.request.callables, callable ∈ callables) :
    (session.answer turn.user turn.request).2.Faithful naming callables := by
  intro user inside
  refine ⟨(faithful user inside).naming_eq, fun name code stands => ?_⟩
  rcases (equipped.answer_grows known turn.request user).of_get? stands with
    stood | ⟨-, -, callable, listed, named, lowered⟩
  · exact (faithful user inside).known name code stood
  · rw [show session.naming turn.user = naming from (faithful turn.user known).naming_eq]
      at lowered
    exact ⟨callable, submitted callable listed, named, lowered⟩

/-- In a session of faithful compilers every turn is answered, and everything handed out, as any
faithful compiler does it. -/
theorem Faithful.run_eq {plain : Compiler} (faithful : session.Faithful naming callables)
    (equipped : session.Equipped) (other : plain.Faithful naming callables)
    (identify : NamesIdentify callables) (staffs : session.Staffs turns)
    (fits : ∀ turn ∈ turns, turn.request.Fits callables) (user : Nat) :
    (session.run turns).1 = turns.map (fun turn => (plain.answer turn.request).1) ∧
      session.deliveries user turns =
        turns.flatMap fun turn =>
          if session.caches.Shares turn.user user then plain.deliveries turn.request else [] := by
  induction turns generalizing session with
  | nil => exact ⟨rfl, rfl⟩
  | cons turn turns induction =>
      have first_fits := fits turn List.mem_cons_self
      have first := faithful turn.user staffs.head
      have next := faithful.answer equipped staffs.head first_fits.submitted
      obtain ⟨outcomes_eq, delivered_eq⟩ :=
        induction next (equipped.answer staffs.head turn.request) staffs.tail
          fun later listed => fits later (List.mem_cons_of_mem _ listed)
      have outcome_eq : (session.answer turn.user turn.request).1 = (plain.answer turn.request).1 :=
        first.answer_fst other identify first_fits
      constructor
      · rw [run_cons, outcome_eq, outcomes_eq, List.map_cons]
      · rw [deliveries, delivered_eq, first.deliveries_eq other identify first_fits,
          List.flatMap_cons]
        simp

theorem fresh_team (naming : Naming) (count : Nat) : (team naming count).Fresh :=
  .inl rfl

/-- The answers and the cache of a team, by the requests alone. -/
theorem team_run {plain : Compiler} (other : plain.Faithful naming callables)
    (identify : NamesIdentify callables) (staffs : (team naming count).Staffs turns)
    (fits : ∀ turn ∈ turns, turn.request.Fits callables) :
    ((team naming count).run turns).1 = turns.map (fun turn => (plain.answer turn.request).1) ∧
      ∀ user name code, (((team naming count).run turns).2.cache user).get? name = some code ↔
        ∃ turn ∈ turns, (name, code) ∈ plain.deliveries turn.request := by
  have fresh := fresh_team naming count
  have run_eq := (faithful_team naming count callables).run_eq fresh.equipped other identify staffs
    fits
  refine ⟨(run_eq 0).1, fun user name code => ?_⟩
  have shares : ∀ first second, (team naming count).caches.Shares first second :=
    fun _ _ => trivial
  rw [fresh.equipped.get?_run staffs, fresh.cache_eq, (run_eq user).2]
  simp only [shares, if_true, List.mem_flatMap]
  simp [Cache.empty, Cache.get?]

/-- If callables of one name agree in a session of compilers that share a cache and a naming, and
no value that cannot be read has the name of one of them, then every turn is answered as by a
compiler that keeps nothing, and in any order of the turns each turn has the same answer and the
cache ends with the same contents. -/
theorem memoization_is_transparent (staffs : (team naming count).Staffs turns)
    (identify : NamesIdentify (Session.callables turns))
    (unread : ∀ turn ∈ turns, ∀ name, turn.request.unreadName? = some name →
      ∀ callable ∈ Session.callables turns, callable.name ≠ name) :
    (∀ insertions, ((team naming count).run turns).1 = turns.map fun turn =>
      (({ naming, cache := .forgetful insertions } : Compiler).answer turn.request).1) ∧
    ∀ reordered, turns.Perm reordered →
      (turns.zip ((team naming count).run turns).1).Perm
        (reordered.zip ((team naming count).run reordered).1) ∧
      ∀ user < count,
        (∀ name, (((team naming count).run reordered).2.cache user).get? name =
          (((team naming count).run turns).2.cache user).get? name) ∧
        (((team naming count).run reordered).2.cache user).size =
          (((team naming count).run turns).2.cache user).size := by
  have fits : ∀ turn ∈ turns, turn.request.Fits (Session.callables turns) := by
    intro turn listed
    refine ⟨fun callable submitted => ?_, unread turn listed⟩
    exact List.mem_flatMap.mpr ⟨turn, listed, submitted⟩
  have plain_faithful := fun insertions =>
    Compiler.faithful_forgetful naming insertions (Session.callables turns)
  refine ⟨fun insertions => (team_run (plain_faithful insertions) identify staffs fits).1, ?_⟩
  intro reordered permuted
  have staffs' : (team naming count).Staffs reordered :=
    fun turn listed => staffs turn (permuted.mem_iff.mpr listed)
  have fits' : ∀ turn ∈ reordered, turn.request.Fits (Session.callables turns) :=
    fun turn listed => fits turn (permuted.mem_iff.mpr listed)
  obtain ⟨outcomes_eq, held⟩ := team_run (plain_faithful 0) identify staffs fits
  obtain ⟨outcomes_eq', held'⟩ := team_run (plain_faithful 0) identify staffs' fits'
  constructor
  · rw [outcomes_eq, outcomes_eq']
    simpa [List.zip_eq_zipWith, List.zipWith_map_right, List.zipWith_self] using permuted.map _
  · intro user inside
    have same : ∀ name, (((team naming count).run reordered).2.cache user).get? name =
        (((team naming count).run turns).2.cache user).get? name := by
      intro name
      ext code
      simp only [held, held', permuted.mem_iff]
    refine ⟨same, ?_⟩
    have known : user < (team naming count).namings.length := by
      simpa [team] using inside
    have keeps : ∀ turns', (team naming count).Staffs turns' →
        (((team naming count).run turns').2.cache user).Keeps := by
      intro turns' staffed
      refine ((fresh_team naming count).equipped.run staffed).keeps user ?_
      simpa using known
    rw [(keeps reordered staffs').size_eq, (keeps turns staffs).size_eq]
    simp only [same]

/-- A function, the same as a method in tuple form, then a class that has it as its first method
and fails at the second, and last a value of another name that cannot be read. -/
def mixed : List Turn :=
  [⟨0, .callable ⟨⟨.function, "same", [.ofWord 0]⟩, [.ret (some (.ofWord 0))]⟩⟩,
    ⟨1, .tuples (.array [.array [.string "method", .string "same", .ofNat 1],
      .array [.string "param", .string "0"], .array [.string "begin"],
      .array [.string "return", .ofNat 0]])⟩,
    ⟨0, .classDecl ⟨"Half", none, [], [],
      [⟨⟨.pub, false, false⟩, ⟨⟨.function, "same", [.ofWord 0]⟩, [.ret (some (.ofWord 0))]⟩⟩,
        ⟨⟨.priv, true, false⟩, ⟨⟨.function, "other", []⟩, [.recurse]⟩⟩]⟩⟩,
    ⟨1, .tuples (.array [.array [.string "function", .string "unread", .ofNat 0]])⟩]

theorem mixed_is_transparent :
    (team {} 2).Staffs mixed ∧ NamesIdentify (Session.callables mixed) ∧
      ((team {} 2).run mixed).1 = mixed.map (fun turn =>
        (({ cache := .forgetful 0 } : Compiler).answer turn.request).1) ∧
      ∀ name, (((team {} 2).run mixed.reverse).2.cache 1).get? name =
        (((team {} 2).run mixed).2.cache 1).get? name := by
  have staffs : (team {} 2).Staffs mixed := by simp [Staffs, team, mixed]
  have identify : NamesIdentify (Session.callables mixed) := by
    unfold NamesIdentify
    decide +kernel
  have unread : ∀ turn ∈ mixed, ∀ name, turn.request.unreadName? = some name →
      ∀ callable ∈ Session.callables mixed, callable.name ≠ name := by
    have names : ∀ turn ∈ mixed, turn.request.unreadName? = none ∨
        turn.request.unreadName? = some "unread" := by decide +kernel
    have apart : ∀ callable ∈ Session.callables mixed, callable.name ≠ "unread" := by
      decide +kernel
    intro turn listed name unread
    rcases names turn listed with readable | unreadable
    · cases readable.symm.trans unread
    · obtain rfl := Option.some.inj (unreadable.symm.trans unread)
      exact apart
  obtain ⟨plain, reordered⟩ := memoization_is_transparent staffs identify unread
  obtain ⟨-, contents⟩ := reordered mixed.reverse mixed.reverse_perm.symm
  exact ⟨staffs, identify, plain 0, (contents 1 (by decide)).1⟩

end Session

end ScriptLowering
