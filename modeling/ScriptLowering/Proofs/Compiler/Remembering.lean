import ScriptLowering.Compiler.Session
import ScriptLowering.Proofs.Compiler.Streaming
import Mathlib.Data.Set.Card

/-!
# What compilers remember

A cache only ever grows, by code for names that had none. `Compiler.answer_grows` says so of one
request and names the callables that the new code comes from, and everything about the caches of
whole sessions follows from it by induction on the requests.
-/

namespace ScriptLowering

namespace Cache

variable {cache : Cache} {name other code held : String}

/-- A cache keeps its entries and has no two of them for one name. -/
def Keeps : Cache → Prop
  | .keeping entries => (entries.map Prod.fst).Nodup
  | .forgetful _ => False

theorem keeps_empty : Keeps .empty :=
  List.nodup_nil

@[simp]
theorem lookup_insertEntry (entries : List (String × String)) :
    (insertEntry name code entries).lookup other =
      if other = name then some code else entries.lookup other := by
  induction entries with
  | nil =>
      by_cases same : other = name
      · simp [insertEntry, same]
      · simp [insertEntry, List.lookup_cons, beq_false_of_ne same, same]
  | cons entry rest induction =>
      obtain ⟨key, value⟩ := entry
      by_cases found : name = key
      · subst found
        by_cases same : other = name
        · simp [insertEntry, same]
        · simp [insertEntry, List.lookup_cons, beq_false_of_ne same, same]
      · by_cases here : other = key
        · subst here
          simp [insertEntry, found, Ne.symm found]
        · simp [insertEntry, found, List.lookup_cons, beq_false_of_ne here, induction]

theorem keys_insertEntry (name code : String) (entries : List (String × String)) :
    (insertEntry name code entries).map Prod.fst =
      if name ∈ entries.map Prod.fst then entries.map Prod.fst
      else entries.map Prod.fst ++ [name] := by
  induction entries with
  | nil => simp [insertEntry]
  | cons entry rest induction =>
      obtain ⟨key, value⟩ := entry
      by_cases found : name = key
      · simp [insertEntry, found]
      · by_cases later : name ∈ rest.map Prod.fst
        · have listed : name ∈ key :: rest.map Prod.fst := List.mem_cons_of_mem _ later
          simp only [insertEntry, if_neg found, List.map_cons, induction, if_pos later,
            if_pos listed]
        · have unlisted : name ∉ key :: rest.map Prod.fst := by simp [found, later]
          simp only [insertEntry, if_neg found, List.map_cons, induction, if_neg later,
            if_neg unlisted, List.cons_append]

theorem Keeps.insert (keeps : cache.Keeps) (name code : String) :
    (cache.insert name code).Keeps := by
  cases cache with
  | forgetful _ => exact keeps.elim
  | keeping entries =>
      have nodup : (entries.map Prod.fst).Nodup := keeps
      change ((insertEntry name code entries).map Prod.fst).Nodup
      rw [keys_insertEntry]
      split
      · exact nodup
      · rename_i new
        rw [← List.concat_eq_append]
        exact nodup.concat new

theorem Keeps.get?_insert (keeps : cache.Keeps) :
    (cache.insert name code).get? other = if other = name then some code else cache.get? other := by
  cases cache with
  | forgetful _ => exact keeps.elim
  | keeping entries => exact lookup_insertEntry entries

/-- Whatever stands in a cache after an insertion has been inserted or stood there before. -/
theorem of_get?_insert (stands : (cache.insert name code).get? other = some held) :
    (other = name ∧ held = code) ∨ cache.get? other = some held := by
  cases cache with
  | forgetful _ => cases stands
  | keeping entries =>
      have found : (insertEntry name code entries).lookup other = some held := stands
      rw [lookup_insertEntry] at found
      split at found
      · rename_i same
        exact .inl ⟨same, (Option.some.inj found).symm⟩
      · exact .inr found

theorem Keeps.size_eq (keeps : cache.Keeps) :
    cache.size = {name | ∃ code, cache.get? name = some code}.ncard := by
  cases cache with
  | forgetful _ => exact keeps.elim
  | keeping entries =>
      have nodup : (entries.map Prod.fst).Nodup := keeps
      have names_eq : {name | ∃ code, (keeping entries).get? name = some code} =
          ((entries.map Prod.fst).toFinset : Set String) := by
        ext name
        have listed := List.lookup_isSome_iff (l := entries) (k := name)
        rw [Option.isSome_iff_exists] at listed
        simp only [beq_iff_eq] at listed
        simp only [Set.mem_ofPred_eq, List.coe_toFinset, List.mem_map]
        exact listed.trans (by simp [eq_comm])
      rw [names_eq, Set.ncard_coe_finset, List.toFinset_card_of_nodup nodup, List.length_map]
      rfl

theorem Keeps.isEmpty_iff (keeps : cache.Keeps) :
    cache.isEmpty ↔ ∀ name, cache.get? name = none := by
  cases cache with
  | forgetful _ => exact keeps.elim
  | keeping entries =>
      cases entries with
      | nil => simp [isEmpty, size, get?]
      | cons entry rest =>
          simp only [isEmpty, size, get?, List.length_cons, beq_iff_eq, Nat.add_eq_zero_iff,
            one_ne_zero, and_false, false_iff, not_forall]
          exact ⟨entry.1, by simp⟩

/-- A cache results from another by putting code to names that had none, where `produced` says
which code may be put to which name. -/
inductive Grows (produced : String → String → Prop) (before : Cache) : Cache → Prop where
  | refl : Grows produced before before
  | insert {after : Cache} {name code : String} (grows : Grows produced before after)
      (new : after.get? name = none) (made : produced name code) :
      Grows produced before (after.insert name code)

namespace Grows

variable {produced wider : String → String → Prop} {before middle after : Cache}

theorem trans (first : Grows produced before middle) (second : Grows produced middle after) :
    Grows produced before after := by
  induction second with
  | refl => exact first
  | insert _ new made induction => exact .insert induction new made

theorem mono (grows : Grows produced before after)
    (weaker : ∀ name code, produced name code → wider name code) : Grows wider before after := by
  induction grows with
  | refl => exact .refl
  | insert _ new made induction => exact .insert induction new (weaker _ _ made)

theorem keeps (grows : Grows produced before after) (keeps : before.Keeps) : after.Keeps := by
  induction grows with
  | refl => exact keeps
  | insert _ _ _ induction => exact induction.insert _ _

/-- No entry is ever changed or removed. -/
theorem get?_of_get? (grows : Grows produced before after) (keeps : before.Keeps)
    {name code : String} (stands : before.get? name = some code) :
    after.get? name = some code := by
  induction grows with
  | refl => exact stands
  | @insert after new_name new_code grows new made induction =>
      have different : name ≠ new_name := by
        rintro rfl
        cases induction.symm.trans new
      rw [(grows.keeps keeps).get?_insert, if_neg different, induction]

/-- Every new entry is one that may be put there. -/
theorem of_get? (grows : Grows produced before after) {name code : String}
    (stands : after.get? name = some code) :
    before.get? name = some code ∨ produced name code := by
  induction grows with
  | refl => exact .inl stands
  | insert _ _ made induction =>
      rcases of_get?_insert stands with ⟨rfl, rfl⟩ | stood
      · exact .inr made
      · exact induction stood

end Grows

end Cache

namespace Request

/-- The callables that a request submits: directly, in tuple form or as the methods of a class. -/
def callables : Request → List Callable
  | .callable submitted => [submitted]
  | .tuples value => (Callable.decode value).toOption.toList
  | .classDecl decl => decl.methods.map Method.callable

/-- The name under which a request for one callable is looked up. -/
def declaredName? : Request → Option String
  | .callable submitted => some submitted.name
  | .tuples value => (Callable.declaredName value).toOption
  | .classDecl _ => none

/-- A callable of a request has a name and is lowered to some code. -/
def Produces (request : Request) (naming : Naming) (name code : String) : Prop :=
  ∃ callable ∈ request.callables, callable.name = name ∧ callable.lower naming = .ok code

theorem declaredName?_of_declaredName {value : Json} {name : String}
    (declared : Callable.declaredName value = .ok name) :
    (Request.tuples value).declaredName? = some name := by
  rw [declaredName?, declared]
  rfl

theorem mem_callables_of_decode {value : Json} {read : Callable}
    (decoded : Callable.decode value = .ok read) : read ∈ (Request.tuples value).callables := by
  simp [callables, decoded, Except.toOption]

end Request

namespace Compiler

/-- The code that a compiler hands out for the methods of a class, by name, up to the first method
that it cannot lower. -/
def methodDeliveries (compiler : Compiler) : List Method → List (String × String)
  | [] => []
  | method :: rest =>
      match compiler.lower method.callable with
      | (.error _, _) => []
      | (.ok code, compiler) => (method.callable.name, code) :: compiler.methodDeliveries rest

/-- The code that a compiler hands out while it answers a request, by the names of the
callables. -/
def deliveries (compiler : Compiler) (request : Request) : List (String × String) :=
  match request with
  | .classDecl decl =>
      match decl.properties.mapM Property.lower with
      | .error _ => []
      | .ok _ => compiler.methodDeliveries decl.methods
  | single =>
      match single.declaredName?, (compiler.answer single).1 with
      | some name, .ok code => [(name, code)]
      | _, _ => []

/-- What a compiler may do with a request for one callable: return the code that the declared name
has, lower a callable of that name and keep the code, or fail and keep nothing. -/
inductive Answers (compiler : Compiler) (request : Request) :
    Except Failure String × Compiler → Prop where
  | known {name code : String} (declared : request.declaredName? = some name)
      (cached : compiler.cache.get? name = some code) :
      Answers compiler request (.ok code, compiler)
  | learned {name code : String} (declared : request.declaredName? = some name)
      (uncached : compiler.cache.get? name = none)
      (produced : request.Produces compiler.naming name code) :
      Answers compiler request
        (.ok code, { compiler with cache := compiler.cache.insert name code })
  | failed {failure : Failure}
      (uncached : ∀ name, request.declaredName? = some name → compiler.cache.get? name = none) :
      Answers compiler request (.error failure, compiler)

variable {compiler : Compiler} {callable : Callable} {value : Json} {request : Request}

theorem answers_of_lower (declared : request.declaredName? = some callable.name)
    (submitted : callable ∈ request.callables) :
    Answers compiler request (compiler.lower callable) := by
  cases cached : compiler.cache.get? callable.name with
  | some code =>
      rw [lower, cached]
      exact .known declared cached
  | none =>
      rw [lower_of_uncached cached]
      cases lowered : callable.lower compiler.naming with
      | ok code => exact .learned declared cached ⟨callable, submitted, rfl, lowered⟩
      | error failure =>
          refine .failed fun name same => ?_
          rw [← Option.some.inj (declared.symm.trans same), cached]

/-- Nothing is learned from a value that cannot be read. -/
theorem answers_of_decode_error {failure : Failure}
    (failed : Callable.decode value = .error failure) :
    Answers compiler (.tuples value) (compiler.lowerTuples value) := by
  cases declared : Callable.declaredName value with
  | error reported =>
      rw [lowerTuples, declared]
      exact .failed (by simp [Request.declaredName?, declared, Except.toOption])
  | ok name =>
      have known := Request.declaredName?_of_declaredName declared
      cases cached : compiler.cache.get? name with
      | some code =>
          simp only [lowerTuples, declared, cached]
          exact .known known cached
      | none =>
          have uncached : ∀ other, (Request.tuples value).declaredName? = some other →
              compiler.cache.get? other = none := by
            intro other same
            rw [← Option.some.inj (known.symm.trans same), cached]
          cases opened : Callable.openTuples value with
          | error reported =>
              simp only [lowerTuples, declared, cached, opened]
              exact .failed uncached
          | ok opening =>
              obtain ⟨run, fault, stops, -⟩ := Callable.stopsAt_of_decode opened failed
              have name_eq : opening.header.name = name :=
                Except.ok.inj ((Callable.declaredName_of_openTuples opened).symm.trans declared)
              rw [← name_eq] at cached
              rw [lowerTuples_of_stopsAt opened cached stops]
              split <;> exact .failed uncached

theorem answers_answer (compiler : Compiler) (request : Request)
    (single : ∀ decl, request ≠ .classDecl decl) :
    Answers compiler request (compiler.answer request) := by
  cases request with
  | callable submitted => exact answers_of_lower rfl (by simp [Request.callables])
  | classDecl decl => exact absurd rfl (single decl)
  | tuples value =>
      cases decoded : Callable.decode value with
      | error failure => exact answers_of_decode_error decoded
      | ok callable =>
          obtain ⟨opening, opened, read⟩ := Except.bind_eq_ok.mp decoded
          have declared := Callable.declaredName_of_openTuples opened
          rw [(Opening.decode_eq_ok.mp read).1] at declared
          have answered : compiler.answer (.tuples value) = compiler.lower callable :=
            lowerTuples_of_decode decoded
          rw [answered]
          exact answers_of_lower (Request.declaredName?_of_declaredName declared)
            (Request.mem_callables_of_decode decoded)

theorem answers_lower (compiler : Compiler) (callable : Callable) :
    Answers compiler (.callable callable) (compiler.lower callable) :=
  compiler.answers_answer (.callable callable) (by simp)

namespace Answers

variable {result : Except Failure String × Compiler}

theorem naming_eq (answers : Answers compiler request result) :
    result.2.naming = compiler.naming := by
  cases answers <;> rfl

theorem grows (answers : Answers compiler request result) :
    Cache.Grows
      (fun name code => (request.declaredName? = some name ∧ result.1 = .ok code) ∧
        request.Produces compiler.naming name code)
      compiler.cache result.2.cache := by
  cases answers with
  | known => exact .refl
  | learned declared uncached produced => exact .insert .refl uncached ⟨⟨declared, rfl⟩, produced⟩
  | failed => exact .refl

theorem eq_of_error (answers : Answers compiler request result) {failure : Failure}
    (refused : result.1 = .error failure) : result.2 = compiler := by
  cases answers with
  | known => cases refused
  | learned => cases refused
  | failed => rfl

theorem eq_of_known (answers : Answers compiler request result) {name code : String}
    (declared : request.declaredName? = some name)
    (cached : compiler.cache.get? name = some code) : result = (.ok code, compiler) := by
  cases answers with
  | known same found =>
      obtain rfl := Option.some.inj (declared.symm.trans same)
      obtain rfl := Option.some.inj (cached.symm.trans found)
      rfl
  | learned same uncached =>
      obtain rfl := Option.some.inj (declared.symm.trans same)
      cases cached.symm.trans uncached
  | failed uncached => cases cached.symm.trans (uncached name declared)

/-- A success leaves its code at the declared name and nothing else behind. -/
theorem of_ok (answers : Answers compiler request result) (keeps : compiler.cache.Keeps)
    {code : String} (accepted : result.1 = .ok code) :
    ∃ name, request.declaredName? = some name ∧ ∀ other,
      result.2.cache.get? other =
        if other = name then some code else compiler.cache.get? other := by
  cases answers with
  | known declared cached =>
      obtain rfl := Except.ok.inj accepted
      refine ⟨_, declared, fun other => ?_⟩
      split
      · rename_i same
        rw [same, cached]
      · rfl
  | learned declared _ _ =>
      obtain rfl := Except.ok.inj accepted
      exact ⟨_, declared, fun other => keeps.get?_insert⟩
  | failed => cases accepted

end Answers

theorem deliveries_of_single (single : ∀ decl, request ≠ .classDecl decl) :
    compiler.deliveries request =
      match request.declaredName?, (compiler.answer request).1 with
      | some name, .ok code => [(name, code)]
      | _, _ => [] := by
  cases request with
  | callable submitted => rfl
  | tuples value => rfl
  | classDecl decl => exact absurd rfl (single decl)

theorem mem_deliveries (single : ∀ decl, request ≠ .classDecl decl) {name code : String} :
    (name, code) ∈ compiler.deliveries request ↔
      request.declaredName? = some name ∧ (compiler.answer request).1 = .ok code := by
  rw [deliveries_of_single single]
  cases request.declaredName? <;> cases (compiler.answer request).1 <;> simp [eq_comm]

theorem lowerMethods_cons (compiler : Compiler) (method : Method) (rest : List Method) :
    (∃ failure next, compiler.lower method.callable = (.error failure, next) ∧
        compiler.lowerMethods (method :: rest) = (.error failure, next) ∧
        compiler.methodDeliveries (method :: rest) = []) ∨
      ∃ code next, compiler.lower method.callable = (.ok code, next) ∧
        compiler.lowerMethods (method :: rest) =
          ((next.lowerMethods rest).1.map (Script.method method.modifiers.render code :: ·),
            (next.lowerMethods rest).2) ∧
        compiler.methodDeliveries (method :: rest) =
          (method.callable.name, code) :: next.methodDeliveries rest := by
  simp only [lowerMethods, lowerMethod, methodDeliveries]
  rcases compiler.lower method.callable with ⟨failure | code, next⟩
  · exact .inl ⟨failure, next, rfl, rfl, rfl⟩
  · refine .inr ⟨code, next, rfl, ?_, rfl⟩
    dsimp only
    rcases next.lowerMethods rest with ⟨failure | codes, final⟩ <;> rfl

@[simp]
theorem lowerMethods_naming (compiler : Compiler) (methods : List Method) :
    (compiler.lowerMethods methods).2.naming = compiler.naming := by
  induction methods generalizing compiler with
  | nil => rfl
  | cons method rest induction =>
      have first := (compiler.answers_lower method.callable).naming_eq
      rcases compiler.lowerMethods_cons method rest with
        ⟨failure, next, lowered, stopped, -⟩ | ⟨code, next, lowered, continued, -⟩
      · rw [lowered] at first
        rw [stopped, first]
      · rw [lowered] at first
        rw [continued, induction, first]

theorem lowerMethods_grows (compiler : Compiler) (methods : List Method) :
    Cache.Grows
      (fun name code => (name, code) ∈ compiler.methodDeliveries methods ∧
        ∃ callable ∈ methods.map Method.callable, callable.name = name ∧
          callable.lower compiler.naming = .ok code)
      compiler.cache (compiler.lowerMethods methods).2.cache := by
  induction methods generalizing compiler with
  | nil => exact .refl
  | cons method rest induction =>
      have answers := compiler.answers_lower method.callable
      rcases compiler.lowerMethods_cons method rest with
        ⟨failure, next, lowered, stopped, -⟩ | ⟨code, next, lowered, continued, deliveries_eq⟩
      · rw [lowered] at answers
        rw [stopped, answers.eq_of_error rfl]
        exact .refl
      · rw [lowered] at answers
        rw [continued, deliveries_eq]
        refine .trans (answers.grows.mono ?_) ((induction next).mono ?_)
        · rintro name produced ⟨⟨declared, accepted⟩, callable, submitted, named, produces⟩
          obtain rfl := List.mem_singleton.mp submitted
          obtain rfl := Except.ok.inj accepted
          refine ⟨?_, method.callable, by simp, named, produces⟩
          rw [← named]
          exact List.mem_cons_self
        · rintro name produced ⟨delivered, callable, listed, named, produces⟩
          rw [answers.naming_eq] at produces
          exact ⟨List.mem_cons_of_mem _ delivered, callable, List.mem_cons_of_mem _ listed, named,
            produces⟩

theorem get?_of_methodDeliveries (keeps : compiler.cache.Keeps) {methods : List Method}
    {name code : String} (delivered : (name, code) ∈ compiler.methodDeliveries methods) :
    (compiler.lowerMethods methods).2.cache.get? name = some code := by
  induction methods generalizing compiler with
  | nil => cases delivered
  | cons method rest induction =>
      have answers := compiler.answers_lower method.callable
      rcases compiler.lowerMethods_cons method rest with
        ⟨failure, next, -, -, deliveries_eq⟩ | ⟨own, next, lowered, continued, deliveries_eq⟩
      · rw [deliveries_eq] at delivered
        cases delivered
      · rw [lowered] at answers
        have next_keeps : next.cache.Keeps := answers.grows.keeps keeps
        rw [continued]
        rw [deliveries_eq] at delivered
        rcases List.mem_cons.mp delivered with here | later
        · obtain ⟨declared, named, stored⟩ := answers.of_ok keeps rfl
          obtain rfl : method.callable.name = declared := Option.some.inj named
          obtain ⟨rfl, rfl⟩ := Prod.mk.inj here
          exact (next.lowerMethods_grows rest).get?_of_get? next_keeps (by simp [stored])
        · exact induction next_keeps later

theorem lowerClass_eq (compiler : Compiler) (decl : ClassDecl) :
    compiler.lowerClass decl =
      match decl.properties.mapM Property.lower with
      | .error failure => (.error failure, compiler)
      | .ok properties =>
          ((compiler.lowerMethods decl.methods).1.map fun methods =>
              Script.classOf decl.name decl.parent decl.interfaces
                (String.join (properties ++ methods)),
            (compiler.lowerMethods decl.methods).2) := by
  rw [lowerClass]
  cases decl.properties.mapM Property.lower with
  | error failure => rfl
  | ok properties =>
      dsimp only
      rcases compiler.lowerMethods decl.methods with ⟨failure | methods, final⟩ <;> rfl

theorem lowerClass_cases (compiler : Compiler) (decl : ClassDecl) :
    ((compiler.lowerClass decl).2 = compiler ∧ compiler.deliveries (.classDecl decl) = []) ∨
      ((compiler.lowerClass decl).2 = (compiler.lowerMethods decl.methods).2 ∧
        compiler.deliveries (.classDecl decl) = compiler.methodDeliveries decl.methods) := by
  rw [lowerClass_eq, deliveries]
  cases decl.properties.mapM Property.lower with
  | error failure => exact .inl ⟨rfl, rfl⟩
  | ok properties => exact .inr ⟨rfl, rfl⟩

@[simp]
theorem answer_naming (compiler : Compiler) (request : Request) :
    (compiler.answer request).2.naming = compiler.naming := by
  cases request with
  | callable submitted => exact (compiler.answers_lower submitted).naming_eq
  | tuples value => exact (compiler.answers_answer (.tuples value) (by simp)).naming_eq
  | classDecl decl =>
      rcases compiler.lowerClass_cases decl with ⟨unchanged, -⟩ | ⟨lowered, -⟩
      · rw [answer, unchanged]
      · simp [answer, lowered]

/-- A request makes a cache grow, by code that is handed out and that a callable of the request is
lowered to. -/
theorem answer_grows (compiler : Compiler) (request : Request) :
    Cache.Grows
      (fun name code => (name, code) ∈ compiler.deliveries request ∧
        request.Produces compiler.naming name code)
      compiler.cache (compiler.answer request).2.cache := by
  by_cases single : ∀ decl, request ≠ .classDecl decl
  · refine (compiler.answers_answer request single).grows.mono ?_
    rintro name code ⟨answered, produced⟩
    exact ⟨(mem_deliveries single).mpr answered, produced⟩
  · obtain ⟨decl, rfl⟩ : ∃ decl, request = .classDecl decl := by simpa using single
    rcases compiler.lowerClass_cases decl with ⟨unchanged, -⟩ | ⟨lowered, deliveries_eq⟩
    · rw [answer, unchanged]
      exact .refl
    · rw [answer, lowered, deliveries_eq]
      exact compiler.lowerMethods_grows decl.methods

/-- After a request a cache holds what it held before and what has been handed out. -/
theorem get?_answer (keeps : compiler.cache.Keeps) {name code : String} :
    (compiler.answer request).2.cache.get? name = some code ↔
      compiler.cache.get? name = some code ∨ (name, code) ∈ compiler.deliveries request := by
  constructor
  · intro stands
    exact ((compiler.answer_grows request).of_get? stands).imp_right And.left
  · rintro (stood | delivered)
    · exact (compiler.answer_grows request).get?_of_get? keeps stood
    by_cases single : ∀ decl, request ≠ .classDecl decl
    · obtain ⟨declared, accepted⟩ := (mem_deliveries single).mp delivered
      obtain ⟨stored, named, stands⟩ :=
        (compiler.answers_answer request single).of_ok keeps accepted
      rw [stands, if_pos (Option.some.inj (declared.symm.trans named))]
    · obtain ⟨decl, rfl⟩ : ∃ decl, request = .classDecl decl := by simpa using single
      rcases compiler.lowerClass_cases decl with ⟨-, deliveries_eq⟩ | ⟨lowered, deliveries_eq⟩
      · rw [deliveries_eq] at delivered
        cases delivered
      · rw [deliveries_eq] at delivered
        rw [answer, lowered]
        exact get?_of_methodDeliveries keeps delivered

end Compiler

end ScriptLowering
