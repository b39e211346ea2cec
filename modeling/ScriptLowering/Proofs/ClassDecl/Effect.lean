import ScriptLowering.Proofs.Compiler.Remembering
import Mathlib.Tactic.IntervalCases

/-!
# What lowering a class does

The methods of a class pass through the cache one by one, so what is remembered, methods of the
same name and a failure midway all have a say in the outcome. This file says what the outcome is
without any cache that changes: a method has the code that is remembered of its name, or else the
code of the first method of that name. The central theorem gives the exact result and the exact
cache behind it, for accepted classes, for defaults that are no strings and for methods that
cannot be lowered.
-/

namespace ScriptLowering

namespace Property

variable {property : Property}

/-- The default value should be a string, and its payload is none. -/
def Rejects (property : Property) (fault : PayloadFault) : Prop :=
  property.type = "string" ∧
    ∃ payload, property.value = some payload ∧ Payload.readString payload = .error fault

/-- What the line of a property shows as its default value: nothing, the literal of a string, or
else the payload as it is. -/
inductive Shows (property : Property) : Option String → Prop where
  | nothing (absent : property.value = none) : Shows property none
  | text {payload value : String} (isString : property.type = "string")
      (given : property.value = some payload) (read : Payload.readString payload = .ok value) :
      Shows property (some (Literal.renderText value))
  | payload {payload : String} (noString : property.type ≠ "string")
      (given : property.value = some payload) : Shows property (some payload)

/-- The line of a property in lowered code. -/
def HasLine (property : Property) (line : String) : Prop :=
  ∃ shown, property.Shows shown ∧
    line = Script.property property.modifiers.render property.name shown

/-- Either the default value is no string, or the property has a line. -/
theorem lower_cases (property : Property) :
    (∃ fault, property.Rejects fault ∧ property.lower = .error (.payload fault)) ∨
      ((∀ fault, ¬ property.Rejects fault) ∧
        ∃ line, property.HasLine line ∧ property.lower = .ok line) := by
  rw [lower, renderValue]
  cases given : property.value with
  | none =>
      refine .inr ⟨fun fault rejects => ?_, _, ⟨none, .nothing given, rfl⟩, rfl⟩
      obtain ⟨-, payload, standing, -⟩ := rejects
      cases given.symm.trans standing
  | some payload =>
      by_cases isString : property.type = "string"
      · cases read : Payload.readString payload with
        | error fault =>
            exact .inl ⟨fault, ⟨isString, payload, given, read⟩, by simp [isString, read]⟩
        | ok value =>
            refine .inr ⟨fun fault rejects => ?_, _, ⟨_, .text isString given read, rfl⟩,
              by simp [isString, read]⟩
            obtain ⟨-, other, standing, failed⟩ := rejects
            obtain rfl := Option.some.inj (given.symm.trans standing)
            cases read.symm.trans failed
      · exact .inr ⟨fun fault rejects => isString rejects.1, _, ⟨_, .payload isString given, rfl⟩,
          by simp [isString]⟩

theorem hasLine_of_lower {line : String} (lowered : property.lower = .ok line) :
    (∀ fault, ¬ property.Rejects fault) ∧ property.HasLine line := by
  rcases property.lower_cases with ⟨fault, -, failed⟩ | ⟨fine, other, has, accepted⟩
  · cases failed.symm.trans lowered
  · obtain rfl := Except.ok.inj (accepted.symm.trans lowered)
    exact ⟨fine, has⟩

theorem rejects_of_lower {failure : Failure} (failed : property.lower = .error failure) :
    ∃ fault, property.Rejects fault ∧ failure = .payload fault := by
  rcases property.lower_cases with ⟨fault, rejects, reported⟩ | ⟨-, line, -, accepted⟩
  · exact ⟨fault, rejects, Except.error.inj (failed.symm.trans reported)⟩
  · cases failed.symm.trans accepted

theorem hasLine_of_mapM_lower {properties : List Property} {lines : List String}
    (lowered : properties.mapM Property.lower = .ok lines) :
    (∀ property ∈ properties, ∀ fault, ¬ property.Rejects fault) ∧
      List.Forall₂ HasLine properties lines :=
  (List.forall₂_and_left _ _).mp
    ((Except.mapM_eq_ok.mp lowered).imp fun _ _ => hasLine_of_lower)

/-- The failure of several properties is that of the first default value that is no string. -/
theorem rejects_of_mapM_lower {properties : List Property} {failure : Failure}
    (failed : properties.mapM Property.lower = .error failure) :
    ∃ front property back fault, properties = front ++ property :: back ∧
      (∀ earlier ∈ front, ∀ fault, ¬ earlier.Rejects fault) ∧ property.Rejects fault ∧
      failure = .payload fault := by
  obtain ⟨front, property, back, lines, split, passed, stopped⟩ :=
    Except.exists_of_mapM_eq_error failed
  obtain ⟨fault, rejects, reported⟩ := rejects_of_lower stopped
  exact ⟨front, property, back, fault, split, (hasLine_of_mapM_lower passed).1, rejects, reported⟩

end Property

namespace Method

/-- The name under which a method passes through the cache. -/
def name (method : Method) : String :=
  method.callable.name

/-- The text of a method with some code: its modifiers, a space, the code and a line end. -/
def text (method : Method) (code : String) : String :=
  method.modifiers.render ++ " " ++ code ++ "\n"

/-- The first of some methods with a name. -/
def firstNamed? (methods : List Method) (name : String) : Option Method :=
  methods.find? fun method => method.name = name

variable {methods front : List Method} {method : Method} {name : String}

@[simp]
theorem firstNamed?_append (methods more : List Method) (name : String) :
    firstNamed? (methods ++ more) name =
      (firstNamed? methods name).or (firstNamed? more name) :=
  List.find?_append

theorem firstNamed?_eq_none (absent : ∀ method ∈ methods, method.name ≠ name) :
    firstNamed? methods name = none := by
  rw [firstNamed?, List.find?_eq_none]
  intro method listed
  simpa using absent method listed

theorem firstNamed?_of_new (new : ∀ earlier ∈ front, earlier.name ≠ method.name)
    (back : List Method) : firstNamed? (front ++ method :: back) method.name = some method := by
  rw [firstNamed?_append, firstNamed?_eq_none new]
  simp [firstNamed?]

end Method

namespace Compiler

/-- The code of a name: what is remembered of it, or else what the first of some methods with that
name is lowered to. -/
def codeOf? (compiler : Compiler) (methods : List Method) (name : String) : Option String :=
  (compiler.cache.get? name).or
    ((Method.firstNamed? methods name).bind fun method =>
      (method.callable.lower compiler.naming).toOption)

/-- The method at a position has no code that is remembered, no method of its name stands in front
of it, and it cannot be lowered. -/
def FailsAt (compiler : Compiler) (methods : List Method) (position : Nat) (failure : Failure) :
    Prop :=
  ∃ method, methods[position]? = some method ∧ compiler.cache.get? method.name = none ∧
    (∀ earlier ∈ methods.take position, earlier.name ≠ method.name) ∧
    method.callable.lower compiler.naming = .error failure

variable {compiler current : Compiler} {methods before : List Method} {method : Method}
  {name code : String}

theorem codeOf?_append_of_some (known : compiler.codeOf? methods name = some code)
    (more : List Method) : compiler.codeOf? (methods ++ more) name = some code := by
  rw [codeOf?] at known ⊢
  cases cached : compiler.cache.get? name with
  | some held => simpa [cached] using known
  | none =>
      cases first : Method.firstNamed? methods name with
      | none => simp [cached, first] at known
      | some method => simpa [cached, first] using known

theorem codeOf?_append_of_ne (other : method.name ≠ name) :
    compiler.codeOf? (methods ++ [method]) name = compiler.codeOf? methods name := by
  have unnamed : Method.firstNamed? [method] name = none :=
    Method.firstNamed?_eq_none (by simpa using other)
  simp [codeOf?, unnamed]

/-- A method of a new name has the code that it is lowered to. -/
theorem codeOf?_of_new (uncached : compiler.cache.get? method.name = none)
    (new : ∀ earlier ∈ before, earlier.name ≠ method.name) (back : List Method) :
    compiler.codeOf? (before ++ method :: back) method.name =
      (method.callable.lower compiler.naming).toOption := by
  rw [codeOf?, uncached, Option.none_or, Method.firstNamed?_of_new new, Option.bind_some]

/-- A compiler remembers what another one does and beyond that exactly the code of some methods,
all of which have code. -/
structure Learned (compiler : Compiler) (methods : List Method) (current : Compiler) : Prop where
  naming_eq : current.naming = compiler.naming
  keeps : current.cache.Keeps
  get?_eq : ∀ name, current.cache.get? name = compiler.codeOf? methods name
  known : ∀ method ∈ methods, ∃ code, compiler.codeOf? methods method.name = some code

theorem learned_nil (keeps : compiler.cache.Keeps) : compiler.Learned [] compiler where
  naming_eq := rfl
  keeps := keeps
  get?_eq := by simp [codeOf?, Method.firstNamed?]
  known := by simp

namespace Learned

theorem known_append (learned : compiler.Learned before current)
    (has : compiler.codeOf? (before ++ [method]) method.name = some code) :
    ∀ listed ∈ before ++ [method], ∃ code,
      compiler.codeOf? (before ++ [method]) listed.name = some code := by
  intro listed mem
  rcases List.mem_append.mp mem with earlier | last
  · obtain ⟨held, known⟩ := learned.known listed earlier
    exact ⟨held, codeOf?_append_of_some known _⟩
  · obtain rfl := List.mem_singleton.mp last
    exact ⟨code, has⟩

/-- A method of a name with code adds nothing. -/
theorem append_of_known (learned : compiler.Learned before current)
    (held : current.cache.get? method.name = some code) :
    compiler.Learned (before ++ [method]) current ∧
      compiler.codeOf? (before ++ [method]) method.name = some code := by
  have has : compiler.codeOf? (before ++ [method]) method.name = some code :=
    codeOf?_append_of_some ((learned.get?_eq _).symm.trans held) _
  refine ⟨⟨learned.naming_eq, learned.keeps, fun name => ?_, learned.known_append has⟩, has⟩
  by_cases same : method.name = name
  · rw [← same, held, has]
  · rw [codeOf?_append_of_ne same, learned.get?_eq]

/-- A method of a new name adds its code. -/
theorem append_of_new (learned : compiler.Learned before current)
    (uncached : compiler.cache.get? method.name = none)
    (new : ∀ earlier ∈ before, earlier.name ≠ method.name)
    (lowered : method.callable.lower compiler.naming = .ok code) :
    compiler.Learned (before ++ [method])
        { current with cache := current.cache.insert method.name code } ∧
      compiler.codeOf? (before ++ [method]) method.name = some code := by
  have has : compiler.codeOf? (before ++ [method]) method.name = some code := by
    rw [codeOf?_of_new uncached new, lowered]
    rfl
  refine ⟨⟨learned.naming_eq, learned.keeps.insert _ _, fun name => ?_,
    learned.known_append has⟩, has⟩
  rw [learned.keeps.get?_insert]
  by_cases same : name = method.name
  · rw [if_pos same, same, has]
  · rw [if_neg same, codeOf?_append_of_ne (Ne.symm same), learned.get?_eq]

/-- A name without code is neither remembered nor that of a method. -/
theorem new_of_get?_eq_none (learned : compiler.Learned before current)
    (missing : current.cache.get? name = none) :
    compiler.cache.get? name = none ∧ ∀ earlier ∈ before, earlier.name ≠ name := by
  rw [learned.get?_eq] at missing
  constructor
  · exact (Option.or_eq_none_iff.mp missing).1
  · rintro earlier listed rfl
    obtain ⟨code, known⟩ := learned.known earlier listed
    cases missing.symm.trans known

/-- The next method has code, which is remembered from there on, or it fails and nothing
changes. -/
theorem lower (learned : compiler.Learned before current) (method : Method) :
    (∃ code next, current.lower method.callable = (.ok code, next) ∧
        compiler.Learned (before ++ [method]) next ∧
        compiler.codeOf? (before ++ [method]) method.name = some code) ∨
      ∃ failure, current.lower method.callable = (.error failure, current) ∧
        ∀ back, compiler.FailsAt (before ++ method :: back) before.length failure := by
  cases held : current.cache.get? method.name with
  | some code =>
      have returned : current.lower method.callable = (.ok code, current) := by
        rw [Compiler.lower, show current.cache.get? method.callable.name = some code from held]
      exact .inl ⟨code, current, returned, learned.append_of_known held⟩
  | none =>
      obtain ⟨uncached, new⟩ := learned.new_of_get?_eq_none held
      rw [lower_of_uncached held, learned.naming_eq]
      cases lowered : method.callable.lower compiler.naming with
      | ok code => exact .inl ⟨code, _, rfl, learned.append_of_new uncached new lowered⟩
      | error failure =>
          refine .inr ⟨failure, rfl, fun back => ⟨method, by simp, uncached, ?_, lowered⟩⟩
          simpa using new

/-- Methods in order have their code one after the other, up to the first that fails. -/
theorem lowerMethods (learned : compiler.Learned before current) (rest : List Method) :
    (∃ codes final, current.lowerMethods rest = (.ok (List.zipWith Method.text rest codes), final) ∧
        compiler.Learned (before ++ rest) final ∧
        List.Forall₂ (fun method code =>
          compiler.codeOf? (before ++ rest) method.name = some code) rest codes) ∨
      ∃ front back failure final, rest = front ++ back ∧
        current.lowerMethods rest = (.error failure, final) ∧
        compiler.Learned (before ++ front) final ∧
        compiler.FailsAt (before ++ rest) (before ++ front).length failure := by
  induction rest generalizing before current with
  | nil => exact .inl ⟨[], current, rfl, by simpa using learned, .nil⟩
  | cons method rest induction =>
      rcases learned.lower method with
        ⟨code, next, lowered, next_learned, has⟩ | ⟨failure, failed, fails⟩
      · rcases current.lowerMethods_cons method rest with
          ⟨_, _, stopped, -⟩ | ⟨_, _, same, continued, -⟩
        · cases lowered.symm.trans stopped
        obtain ⟨⟨⟩, rfl⟩ := Prod.mk.inj (lowered.symm.trans same)
        rw [continued]
        rcases induction next_learned with
          ⟨codes, final, rest_lowered, final_learned, codes_eq⟩ |
          ⟨front, back, failure, final, rfl, rest_failed, final_learned, fails⟩
        · rw [← List.append_cons] at final_learned codes_eq
          refine .inl ⟨code :: codes, final, by rw [rest_lowered]; rfl, final_learned, ?_⟩
          refine .cons ?_ codes_eq
          rw [List.append_cons]
          exact codeOf?_append_of_some has rest
        · rw [← List.append_cons] at final_learned
          rw [← List.append_cons, ← List.append_cons] at fails
          exact .inr ⟨method :: front, back, failure, final, rfl, by rw [rest_failed]; rfl,
            final_learned, fails⟩
      · rcases current.lowerMethods_cons method rest with
          ⟨_, _, same, stopped, -⟩ | ⟨_, _, continued, -⟩
        · obtain ⟨⟨⟩, rfl⟩ := Prod.mk.inj (failed.symm.trans same)
          exact .inr ⟨[], method :: rest, failure, current, rfl, stopped, by simpa using learned,
            by simpa using fails rest⟩
        · cases failed.symm.trans continued

/-- Methods that have code do not fail. -/
theorem not_failsAt {position earlier : Nat}
    (learned : compiler.Learned (methods.take position) current) (precedes : earlier < position)
    (failure : Failure) : ¬ compiler.FailsAt methods earlier failure := by
  rintro ⟨method, standing, uncached, new, failed⟩
  have taken : (methods.take position)[earlier]? = some method := by
    rw [List.getElem?_take_of_lt precedes, standing]
  obtain ⟨code, known⟩ := learned.known method (List.mem_of_getElem? taken)
  obtain ⟨inside, method_eq⟩ := List.getElem?_eq_some_iff.mp taken
  have front_eq : (methods.take position).take earlier = methods.take earlier := by
    rw [List.take_take, Nat.min_eq_left precedes.le]
  rw [← List.take_append_drop earlier (methods.take position), front_eq,
    List.drop_eq_getElem_cons inside, method_eq, codeOf?_of_new uncached new, failed] at known
  cases known

end Learned

end Compiler

/-- The text of a class, with the lines of its properties and the code of its methods. -/
def ClassDecl.text (decl : ClassDecl) (lines codes : List String) : String :=
  Script.classOf decl.name decl.parent decl.interfaces
    (String.join (lines ++ List.zipWith Method.text decl.methods codes))

namespace Compiler

variable {compiler : Compiler} {decl : ClassDecl}

theorem lowerClass_of_lines {lines : List String}
    (lowered : decl.properties.mapM Property.lower = .ok lines) (keeps : compiler.cache.Keeps) :
    (∃ codes,
        List.Forall₂ (fun method code => compiler.codeOf? decl.methods method.name = some code)
          decl.methods codes ∧
        (compiler.lowerClass decl).1 = .ok (decl.text lines codes) ∧
        compiler.Learned decl.methods (compiler.lowerClass decl).2) ∨
      ∃ position failure, compiler.FailsAt decl.methods position failure ∧
        (compiler.lowerClass decl).1 = .error failure ∧
        compiler.Learned (decl.methods.take position) (compiler.lowerClass decl).2 := by
  rw [lowerClass_eq, lowered]
  rcases (learned_nil keeps).lowerMethods decl.methods with
    ⟨codes, final, methods_lowered, learned, codes_eq⟩ |
    ⟨front, back, failure, final, split, failed, learned, fails⟩
  · refine .inl ⟨codes, codes_eq, ?_⟩
    rw [methods_lowered]
    exact ⟨rfl, learned⟩
  · refine .inr ⟨front.length, failure, fails, ?_⟩
    rw [failed, split, List.take_left]
    exact ⟨rfl, learned⟩

/-- The exact effect of lowering a class. If a default value that should be a string is none, the
first such is reported and nothing is remembered. Otherwise, if no method fails that is the first
of its name and has no code yet, the class lists its properties and then its methods, each of them
with the code that is remembered of its name or else that of the first method of the name, and
this code is remembered beyond what was. Otherwise the first method that fails is reported, and
beyond what was remembered the code of the methods in front of it is. -/
theorem lowerClass_has_exact_effect (keeps : compiler.cache.Keeps) (decl : ClassDecl) :
    ((∃ property ∈ decl.properties, ∃ fault, property.Rejects fault) →
      ∃ front property back fault, decl.properties = front ++ property :: back ∧
        (∀ earlier ∈ front, ∀ fault, ¬ earlier.Rejects fault) ∧ property.Rejects fault ∧
        compiler.lowerClass decl = (.error (.payload fault), compiler)) ∧
    ((∀ property ∈ decl.properties, ∀ fault, ¬ property.Rejects fault) →
      ((∀ position failure, ¬ compiler.FailsAt decl.methods position failure) →
        ∃ lines codes, List.Forall₂ Property.HasLine decl.properties lines ∧
          List.Forall₂ (fun method code => compiler.codeOf? decl.methods method.name = some code)
            decl.methods codes ∧
          (compiler.lowerClass decl).1 = .ok (decl.text lines codes) ∧
          compiler.Learned decl.methods (compiler.lowerClass decl).2) ∧
      ((∃ position failure, compiler.FailsAt decl.methods position failure) →
        ∃ position failure, compiler.FailsAt decl.methods position failure ∧
          (∀ earlier < position, ∀ other, ¬ compiler.FailsAt decl.methods earlier other) ∧
          (compiler.lowerClass decl).1 = .error failure ∧
          compiler.Learned (decl.methods.take position) (compiler.lowerClass decl).2)) := by
  cases lowered : decl.properties.mapM Property.lower with
  | error failure =>
      obtain ⟨front, property, back, fault, split, first, rejects, rfl⟩ :=
        Property.rejects_of_mapM_lower lowered
      have listed : property ∈ decl.properties := by simp [split]
      refine ⟨fun _ => ?_, fun fine => absurd rejects (fine property listed fault)⟩
      exact ⟨front, property, back, fault, split, first, rejects, by rw [lowerClass_eq, lowered]⟩
  | ok lines =>
      obtain ⟨fine, has⟩ := Property.hasLine_of_mapM_lower lowered
      refine ⟨fun ⟨property, listed, fault, rejects⟩ => absurd rejects (fine property listed fault),
        fun _ => ?_⟩
      rcases lowerClass_of_lines lowered keeps with
        ⟨codes, codes_eq, text_eq, learned⟩ | ⟨position, failure, fails, failed, learned⟩
      · refine ⟨fun _ => ⟨lines, codes, has, codes_eq, text_eq, learned⟩, ?_⟩
        rintro ⟨position, failure, fails⟩
        obtain ⟨_, standing, -⟩ := id fails
        obtain ⟨inside, -⟩ := List.getElem?_eq_some_iff.mp standing
        have whole : compiler.Learned (decl.methods.take decl.methods.length)
            (compiler.lowerClass decl).2 := by rwa [List.take_length]
        exact absurd fails (whole.not_failsAt inside failure)
      · refine ⟨fun none_fails => absurd fails (none_fails position failure), fun _ => ?_⟩
        exact ⟨position, failure, fails, fun earlier => learned.not_failsAt, failed, learned⟩

/-- A compiler that remembers the code of a method `b`. -/
def schooled : Compiler where
  cache := .keeping [("b", "remembered")]

/-- A class whose second and third method cannot be lowered, but have the name of a method that is
remembered or comes before. The fourth cannot be lowered either. -/
def interrupted : ClassDecl where
  name := "C"
  parent := none
  interfaces := []
  properties := [⟨none, "p", .pub, false, "string", some "aGk="⟩]
  methods :=
    [⟨⟨.pub, false, false⟩, ⟨.method, "a", [.ofWord 0]⟩, [.ret (some (.ofWord 0))]⟩,
      ⟨⟨.pub, true, false⟩, ⟨.method, "b", []⟩, [.recurse]⟩,
      ⟨⟨.pub, false, true⟩, ⟨.method, "a", []⟩, [.recurse]⟩,
      ⟨⟨.pub, false, false⟩, ⟨.method, "c", []⟩, [.ret (some (.ofWord 5))]⟩,
      ⟨⟨.priv, false, false⟩, ⟨.method, "d", []⟩, [.ret none]⟩]

theorem schooled_keeps : schooled.cache.Keeps :=
  List.nodup_singleton "b"

/-- The code of the first method of that class. -/
def interruptedCode : String :=
  "function a($var2) " ++ Script.braced "\nreturn $var2;\n"

/-- Only the fourth method is reported, and beyond `b` the code of the first one is remembered. -/
theorem interrupted_has_exact_effect :
    schooled.cache.Keeps ∧
      schooled.FailsAt interrupted.methods 3 (.unbound (.ofWord 5)) ∧
      (schooled.lowerClass interrupted).1 = .error (.unbound (.ofWord 5)) ∧
      (schooled.lowerClass interrupted).2.cache.get? "a" = some interruptedCode ∧
      (schooled.lowerClass interrupted).2.cache.get? "b" = some "remembered" ∧
      (schooled.lowerClass interrupted).2.cache.get? "d" = none := by
  have fine : ∀ property ∈ interrupted.properties, ∀ fault, ¬ property.Rejects fault := by
    rintro property listed fault ⟨-, payload, given, rejected⟩
    obtain rfl := List.mem_singleton.mp listed
    obtain rfl := Option.some.inj given
    have read : Payload.readString "aGk=" = .ok "hi" := by decide +kernel
    cases read.symm.trans rejected
  have first_lowered : interrupted.methods[0].callable.lower {} = .ok interruptedCode := by
    decide +kernel
  have fourth_refused :
      interrupted.methods[3].callable.lower {} = .error (.unbound (.ofWord 5)) := by
    decide +kernel
  have breaks : schooled.FailsAt interrupted.methods 3 (.unbound (.ofWord 5)) :=
    ⟨_, rfl, rfl, by decide +kernel, fourth_refused⟩
  obtain ⟨position, failure, fails, minimal, failed, learned⟩ :=
    ((lowerClass_has_exact_effect schooled_keeps interrupted).2 fine).2 ⟨3, _, breaks⟩
  have position_le : position ≤ 3 := by
    by_contra later
    exact minimal 3 (by omega) _ breaks
  obtain ⟨method, standing, uncached, new, refused⟩ := fails
  interval_cases position <;> obtain rfl := Option.some.inj standing
  · cases first_lowered.symm.trans refused
  · cases uncached
  · exact absurd rfl (new interrupted.methods[0] List.mem_cons_self)
  · obtain rfl := Except.error.inj (fourth_refused.symm.trans refused)
    refine ⟨schooled_keeps, breaks, failed, ?_, ?_, ?_⟩ <;> rw [learned.get?_eq] <;>
      decide +kernel

end Compiler

end ScriptLowering
