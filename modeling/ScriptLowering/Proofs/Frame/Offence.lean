import ScriptLowering.Proofs.Frame.ClosedForm
import Mathlib.Tactic.IntervalCases

/-!
# The first offence

Which callables can be lowered, said without lowering them. An instruction offends if it is a
recursive call, if its payload should be a string and is none, or if it looks up a variable that
nothing in front of it introduces. The central theorem is that lowering accepts exactly the
callables without an offence, and reports the first one of any other.
-/

namespace ScriptLowering

namespace Instr

/-- The variables that lowering an instruction looks up, in order: a result before the operands,
but the arguments of a call before its result. -/
def lookups : Instr → List Variable
  | .free _ | .const _ _ _ | .declare _ => []
  | .call result _ arguments => arguments ++ [result]
  | instr => instr.result?.toList ++ instr.operands

/-- What is wrong with an instruction where only the given variables have been introduced. -/
def offence? (known : List Variable) : Instr → Option Failure
  | .recurse => some .recursion
  | .const _ .string payload =>
      match Payload.readString payload with
      | .ok _ => none
      | .error fault => some (.payload fault)
  | instr => (instr.lookups.find? fun subject => subject ∉ known).map .unbound

/-- What is wrong with the instruction at a position of a body, where the given variables have
been introduced in front of all of it. -/
def offenceAt? (known : List Variable) (body : List Instr) (position : Nat) : Option Failure :=
  body[position]?.bind (offence? (known ++ (body.take position).filterMap introduced?))

/-- The instruction marks the end of the use of a variable. -/
def isFree : Instr → Bool
  | .free _ => true
  | _ => false

end Instr

namespace Callable

variable (callable : Callable) (position : Nat)

/-- A variable has been introduced in front of a position. -/
def InScope (subject : Variable) : Prop :=
  subject = .receiver ∨ subject ∈ callable.params ∨
    ∃ earlier < position, ∃ instr, callable.body[earlier]? = some instr ∧
      instr.introduced? = some subject

/-- The instruction at a position cannot be lowered. -/
def Bad : Prop :=
  ∃ instr, callable.body[position]? = some instr ∧
    (instr = .recurse ∨
      (∃ result payload fault, instr = .const result .string payload ∧
        Payload.readString payload = .error fault) ∨
      (instr.emits ∧ ∃ subject ∈ instr.mentions, ¬ callable.InScope position subject))

/-- What is wrong with the instruction at a position. -/
def offenceAt? : Option Failure :=
  Instr.offenceAt? (.receiver :: callable.params) callable.body position

variable {callable position}

theorem mem_introduced {subject : Variable} :
    subject ∈ .receiver :: callable.params ++
        (callable.body.take position).filterMap Instr.introduced? ↔
      callable.InScope position subject := by
  have introduced : subject ∈ (callable.body.take position).filterMap Instr.introduced? ↔
      ∃ earlier < position, ∃ instr, callable.body[earlier]? = some instr ∧
        instr.introduced? = some subject := by
    rw [List.mem_filterMap]
    simp only [List.mem_iff_getElem?, List.getElem?_take]
    constructor
    · rintro ⟨instr, ⟨earlier, standing⟩, introduces⟩
      split at standing
      · rename_i precedes
        exact ⟨earlier, precedes, instr, standing, introduces⟩
      · cases standing
    · rintro ⟨earlier, precedes, instr, standing, introduces⟩
      exact ⟨instr, ⟨earlier, by rw [if_pos precedes, standing]⟩, introduces⟩
  rw [InScope, List.cons_append, List.mem_cons, List.mem_append, introduced]

end Callable

namespace Instr

variable {instr : Instr} {known : List Variable}

/-- Apart from the order, looking up is mentioning. -/
theorem mem_lookups (emits : instr.emits) {subject : Variable} :
    subject ∈ instr.lookups ↔ subject ∈ instr.mentions := by
  cases instr with
  | free _ | const _ _ _ | declare _ => cases emits
  | call result callee arguments => exact Iff.rfl
  | _ =>
      simp only [lookups, mentions, List.mem_append]
      exact or_comm

theorem offence?_of_emits (emits : instr.emits) (lively : instr ≠ .recurse) :
    instr.offence? known = (instr.lookups.find? fun subject => subject ∉ known).map .unbound := by
  cases instr with
  | recurse => exact absurd rfl lively
  | const _ _ _ => cases emits
  | _ => rfl

theorem exists_offence?_iff :
    (∃ failure, instr.offence? known = some failure) ↔
      instr = .recurse ∨
        (∃ result payload fault, instr = .const result .string payload ∧
          Payload.readString payload = .error fault) ∨
        (instr.emits ∧ ∃ subject ∈ instr.mentions, subject ∉ known) := by
  cases emits : instr.emits with
  | true =>
      by_cases recursive : instr = .recurse
      · simp [recursive, offence?]
      · have no_constant : ∀ result payload, instr ≠ .const result .string payload := by
          rintro result payload rfl
          cases emits
        rw [offence?_of_emits emits recursive]
        simp [recursive, no_constant, ← mem_lookups emits, ← Option.isSome_iff_exists]
  | false =>
      cases instr with
      | free _ | declare _ => simp [offence?, lookups]
      | const result type payload =>
          cases type with
          | string => cases read : Payload.readString payload <;> simp [offence?, read]
          | _ => simp [offence?, lookups]
      | _ => cases emits

@[simp]
theorem offenceAt?_zero (known : List Variable) (instr : Instr) (body : List Instr) :
    offenceAt? known (instr :: body) 0 = instr.offence? known := by
  simp [offenceAt?]

@[simp]
theorem offenceAt?_succ (known : List Variable) (instr : Instr) (body : List Instr)
    (position : Nat) :
    offenceAt? known (instr :: body) (position + 1) =
      offenceAt? (known ++ instr.introduced?.toList) body position := by
  unfold offenceAt?
  rw [List.getElem?_cons_succ, List.take_succ_cons, List.filterMap_cons]
  cases instr.introduced? <;> simp

end Instr

theorem Callable.bad_iff {callable : Callable} {position : Nat} :
    callable.Bad position ↔ ∃ failure, callable.offenceAt? position = some failure := by
  cases standing : callable.body[position]? with
  | none => simp [Bad, offenceAt?, Instr.offenceAt?, standing]
  | some instr =>
      simp only [Bad, offenceAt?, Instr.offenceAt?, standing, ← mem_introduced, Option.some.injEq,
        exists_eq_left', Option.bind_some]
      exact Instr.exists_offence?_iff.symm

theorem Callable.exists_first_bad {callable : Callable} {position : Nat}
    (bad : callable.Bad position) :
    ∃ first, callable.Bad first ∧ ∀ earlier < first, ¬ callable.Bad earlier := by
  classical
  have some_bad : ∃ position, callable.Bad position := ⟨position, bad⟩
  exact ⟨Nat.find some_bad, Nat.find_spec some_bad, fun _ => Nat.find_min some_bad⟩

theorem Callable.not_bad_iff {callable : Callable} {position : Nat} :
    ¬ callable.Bad position ↔ callable.offenceAt? position = none := by
  rw [bad_iff, ← Option.isSome_iff_exists, Option.not_isSome_iff_eq_none]

namespace Frame

variable {frame : Frame Literal Statement} {known : List Variable} {instr : Instr}

/-- A frame has names for exactly the given variables. -/
def Knows (frame : Frame Literal Statement) (known : List Variable) : Prop :=
  ∀ subject, (∃ binding, frame.binding? subject = some binding) ↔ subject ∈ known

theorem Knows.resolve_of_mem (knows : frame.Knows known) {subject : Variable}
    (introduced : subject ∈ known) : ∃ binding, frame.resolve subject = .ok binding := by
  obtain ⟨binding, called⟩ := (knows subject).mpr introduced
  exact ⟨binding, (frame.resolve_eq_ok).mpr called⟩

theorem Knows.resolve_of_notMem (knows : frame.Knows known) {subject : Variable}
    (missing : subject ∉ known) : frame.resolve subject = .error (.unbound subject) := by
  unfold resolve
  cases called : frame.binding? subject with
  | none => rfl
  | some binding => exact absurd ((knows subject).mp ⟨binding, called⟩) missing

/-- Looking up several variables fails at the first one that has no name. -/
theorem Knows.mapM_resolve_of_find? (knows : frame.Knows known) {subjects : List Variable}
    {missing : Variable}
    (first : (subjects.find? fun subject => subject ∉ known) = some missing) :
    subjects.mapM frame.resolve = .error (.unbound missing) := by
  induction subjects with
  | nil => cases first
  | cons subject rest induction =>
      rw [List.mapM_cons]
      by_cases introduced : subject ∈ known
      · obtain ⟨binding, resolved⟩ := knows.resolve_of_mem introduced
        have later : (rest.find? fun subject => subject ∉ known) = some missing := by
          simpa [introduced] using first
        rw [resolved, induction later]
        rfl
      · have here : subject = missing := by simpa [introduced] using first
        rw [knows.resolve_of_notMem introduced, here]
        rfl

theorem Knows.mapM_resolve_of_subset (knows : frame.Knows known) {subjects : List Variable}
    (introduced : ∀ subject ∈ subjects, subject ∈ known) :
    ∃ bindings, subjects.mapM frame.resolve = .ok bindings := by
  induction subjects with
  | nil => exact ⟨[], rfl⟩
  | cons subject rest induction =>
      obtain ⟨binding, resolved⟩ := knows.resolve_of_mem (introduced subject List.mem_cons_self)
      obtain ⟨bindings, rest_resolved⟩ := induction fun other listed =>
        introduced other (List.mem_cons_of_mem subject listed)
      exact ⟨binding :: bindings, by rw [List.mapM_cons, resolved, rest_resolved]; rfl⟩

@[simp]
theorem bindings_mention (frame : Frame Literal Statement) (label : Label) :
    (frame.mention label).2.bindings = frame.bindings := by
  unfold mention
  split <;> rfl

/-- An instruction with a place among the statements looks up its variables in order, and nothing
else can go wrong with it. -/
theorem lower_resolves (frame : Frame Literal Statement) (emits : instr.emits)
    (lively : instr ≠ .recurse) :
    (∃ failure, instr.lookups.mapM frame.resolve = .error failure ∧
        frame.lower instr = .error failure) ∨
      ∃ bindings next, instr.lookups.mapM frame.resolve = .ok bindings ∧
        frame.lower instr = .ok next ∧ next.bindings = frame.bindings := by
  cases instr with
  | free _ | const _ _ _ | declare _ => cases emits
  | recurse => exact absurd rfl lively
  | assign result operand | fetch result operand _ | unary _ result operand =>
      cases first : frame.resolve result <;> cases second : frame.resolve operand <;>
        simp [lower, Instr.lookups, Instr.result?, Instr.operands, first, second, bind,
          Except.bind, pure, Except.pure, emit]
  | binary op result left right =>
      cases first : frame.resolve result <;> cases second : frame.resolve left <;>
        cases third : frame.resolve right <;>
        simp [lower, Instr.lookups, Instr.result?, Instr.operands, first, second, third, bind,
          Except.bind, pure, Except.pure, emit]
  | label target | jump target =>
      simp [lower, Instr.lookups, Instr.result?, Instr.operands, pure, Except.pure, emit]
  | jumpIfFalse condition target =>
      cases first : frame.resolve condition <;>
        simp [lower, Instr.lookups, Instr.result?, Instr.operands, first, bind, Except.bind, pure,
          Except.pure, emit]
  | ret value =>
      cases value with
      | none => simp [lower, Instr.lookups, Instr.result?, Instr.operands, pure, Except.pure, emit]
      | some value =>
          cases first : frame.resolve value <;>
            simp [lower, Instr.lookups, Instr.result?, Instr.operands, first, bind, Except.bind,
              pure, Except.pure, emit]
  | call result callee arguments =>
      cases first : arguments.mapM frame.resolve <;> cases second : frame.resolve result <;>
        simp [lower, Instr.lookups, first, second, bind, Except.bind, pure, Except.pure, emit]

theorem Knows.introduce (knows : frame.Knows known) (subject : Variable)
    (binding : Binding Literal) : (frame.introduce subject binding).Knows (known ++ [subject]) := by
  intro other
  by_cases same : subject = other
  · simp [same]
  · simp [same, Ne.symm same, ← knows other]

/-- An instruction that offends is reported with its offence. -/
theorem Knows.lower_of_offence? (knows : frame.Knows known) {failure : Failure}
    (offends : instr.offence? known = some failure) : frame.lower instr = .error failure := by
  cases emits : instr.emits with
  | true =>
      by_cases recursive : instr = .recurse
      · subst recursive
        obtain rfl := Option.some.inj offends
        rfl
      · rw [Instr.offence?_of_emits emits recursive] at offends
        obtain ⟨missing, first, rfl⟩ := Option.map_eq_some_iff.mp offends
        have failed := knows.mapM_resolve_of_find? first
        rcases frame.lower_resolves emits recursive with
          ⟨failure, reported, lowered⟩ | ⟨bindings, next, resolved, -⟩
        · rw [lowered, Except.error.inj (reported.symm.trans failed)]
        · cases failed.symm.trans resolved
  | false =>
      cases instr with
      | const result type payload =>
          cases type with
          | string =>
              cases read : Payload.readString payload with
              | ok value => simp [Instr.offence?, read] at offends
              | error fault =>
                  obtain rfl : .payload fault = failure := by
                    simpa [Instr.offence?, read] using offends
                  simp [lower, Literal.ofConst, read, bind, Except.bind]
          | _ => cases offends
      | free _ | declare _ => cases offends
      | _ => cases emits

/-- An instruction that does not offend is lowered, and what it introduces is known from there
on. -/
theorem Knows.lower_of_offence?_none (knows : frame.Knows known)
    (fine : instr.offence? known = none) :
    ∃ next, frame.lower instr = .ok next ∧ next.Knows (known ++ instr.introduced?.toList) := by
  cases emits : instr.emits with
  | true =>
      have lively : instr ≠ .recurse := by
        rintro rfl
        cases fine
      have silent : instr.introduced? = none := by
        cases instr <;> simp_all [Instr.introduced?, Instr.emits]
      rw [Instr.offence?_of_emits emits lively, Option.map_eq_none_iff] at fine
      have introduced : ∀ subject ∈ instr.lookups, subject ∈ known := by
        simpa using fine
      obtain ⟨bindings, resolved⟩ := knows.mapM_resolve_of_subset introduced
      rcases frame.lower_resolves emits lively with
        ⟨failure, failed, -⟩ | ⟨_, next, -, lowered, same⟩
      · cases failed.symm.trans resolved
      · refine ⟨next, lowered, fun subject => ?_⟩
        rw [binding?, same, silent, Option.toList_none, List.append_nil]
        exact knows subject
  | false =>
      cases instr with
      | free subject => exact ⟨frame, rfl, by simpa [Instr.introduced?] using knows⟩
      | declare result => exact ⟨_, rfl, knows.introduce result _⟩
      | const result type payload =>
          have decoded : ∃ value, Literal.ofConst type payload = .ok value := by
            cases type with
            | string =>
                cases read : Payload.readString payload with
                | ok value => exact ⟨.text value, by simp [Literal.ofConst, read]⟩
                | error fault => simp [Instr.offence?, read] at fine
            | _ => exact ⟨_, rfl⟩
          obtain ⟨value, decoded⟩ := decoded
          exact ⟨_, Except.bind_eq_ok.mpr ⟨value, decoded, rfl⟩, knows.introduce result _⟩
      | _ => cases emits

theorem Knows.lowerAll_of_fine (knows : frame.Knows known) {body : List Instr}
    (fine : ∀ position, Instr.offenceAt? known body position = none) :
    ∃ final, frame.lowerAll (body.map .ok) = .ok final := by
  induction body generalizing frame known with
  | nil => exact ⟨frame, rfl⟩
  | cons instr body induction =>
      have head_fine : instr.offence? known = none := by simpa using fine 0
      obtain ⟨next, lowered, next_knows⟩ := knows.lower_of_offence?_none head_fine
      have body_fine : ∀ position,
          Instr.offenceAt? (known ++ instr.introduced?.toList) body position = none := by
        intro position
        simpa using fine (position + 1)
      obtain ⟨final, rest_lowered⟩ := induction next_knows body_fine
      refine ⟨final, ?_⟩
      rw [List.map_cons, lowerAll_cons]
      exact Except.bind_eq_ok.mpr ⟨next, lowered, rest_lowered⟩

theorem Knows.lowerAll_of_first (knows : frame.Knows known) {body : List Instr} {position : Nat}
    {failure : Failure} (offends : Instr.offenceAt? known body position = some failure)
    (first : ∀ earlier < position, Instr.offenceAt? known body earlier = none) :
    frame.lowerAll (body.map .ok) = .error failure := by
  induction body generalizing frame known position with
  | nil => simp [Instr.offenceAt?] at offends
  | cons instr body induction =>
      rw [List.map_cons, lowerAll_cons]
      cases position with
      | zero =>
          rw [Instr.offenceAt?_zero] at offends
          have failed : (.ok instr >>= frame.lower) = .error failure :=
            knows.lower_of_offence? offends
          rw [failed]
          rfl
      | succ position =>
          have head_fine : instr.offence? known = none := by
            simpa using first 0 (Nat.succ_pos position)
          obtain ⟨next, lowered, next_knows⟩ := knows.lower_of_offence?_none head_fine
          have continued : (.ok instr >>= frame.lower) = .ok next := lowered
          rw [Instr.offenceAt?_succ] at offends
          rw [continued]
          refine induction next_knows offends fun earlier precedes => ?_
          simpa using first (earlier + 1) (Nat.succ_lt_succ precedes)

theorem lowerAll_filter_isFree (frame : Frame Literal Statement) (body : List Instr) :
    frame.lowerAll ((body.filter fun instr => !instr.isFree).map .ok) =
      frame.lowerAll (body.map .ok) := by
  induction body generalizing frame with
  | nil => rfl
  | cons instr body induction =>
      rw [List.map_cons, lowerAll_cons]
      cases marks : instr.isFree with
      | false =>
          rw [List.filter_cons_of_pos (by simp [marks]), List.map_cons, lowerAll_cons]
          congr 1
          funext next
          exact induction next
      | true =>
          rw [List.filter_cons_of_neg (by simp [marks]), induction]
          cases instr with
          | free subject => rfl
          | _ => cases marks

theorem Knows.declareAll (knows : frame.Knows known) (params : List Variable) :
    (frame.declareAll params).2.Knows (known ++ params) := by
  induction params generalizing frame known with
  | nil => rwa [List.append_nil]
  | cons subject rest induction =>
      rw [List.append_cons]
      exact induction (knows.introduce subject _)

theorem knows_start (naming : Naming) : (start naming).Knows [.receiver] := by
  intro subject
  by_cases same : subject = .receiver
  · simp [binding?, start, same]
  · simp [binding?, start, same, List.lookup_cons, beq_false_of_ne same]

end Frame

namespace Callable

variable {callable : Callable} {naming : Naming}

theorem lower_of_finalFrame_error {failure : Failure}
    (failed : callable.finalFrame naming = .error failure) :
    callable.lower naming = .error failure := by
  unfold finalFrame at failed
  simp only [lower, Header.lower, failed]
  rfl

theorem lower_eq_ok_of_fine (fine : ∀ position, callable.offenceAt? position = none) :
    ∃ code, callable.lower naming = .ok code := by
  have knows := (Frame.knows_start naming).declareAll callable.params
  obtain ⟨final, lowered⟩ := knows.lowerAll_of_fine fine
  exact ⟨_, lower_eq_ok_iff.mpr ⟨final, lowered, rfl⟩⟩

theorem lower_eq_error_of_first {position : Nat} {failure : Failure}
    (offends : callable.offenceAt? position = some failure)
    (first : ∀ earlier < position, callable.offenceAt? earlier = none) :
    callable.lower naming = .error failure := by
  have knows := (Frame.knows_start naming).declareAll callable.params
  exact lower_of_finalFrame_error (knows.lowerAll_of_first offends first)

theorem lower_filter_isFree :
    { callable with body := callable.body.filter fun instr => !instr.isFree : Callable }.lower
      naming = callable.lower naming := by
  simp only [lower, Header.lower, Frame.lowerAll_filter_isFree]

end Callable

namespace Compiler

variable {compiler : Compiler} {callable : Callable}

/-- A callable whose name is not known is lowered if and only if none of its instructions is bad.
Otherwise the offence of the first bad one is reported and nothing is remembered. The marks at the
ends of uses have no say in either. -/
theorem lower_reports_first_offence (uncached : compiler.cache.get? callable.name = none) :
    ((∃ code, (compiler.lower callable).1 = .ok code) ↔ ∀ position, ¬ callable.Bad position) ∧
    (∀ position, callable.Bad position → (∀ earlier < position, ¬ callable.Bad earlier) →
      ∃ failure, callable.offenceAt? position = some failure ∧
        compiler.lower callable = (.error failure, compiler)) ∧
    compiler.lower { callable with body := callable.body.filter fun instr => !instr.isFree } =
      compiler.lower callable := by
  have reported : ∀ position, callable.Bad position →
      (∀ earlier < position, ¬ callable.Bad earlier) →
      ∃ failure, callable.offenceAt? position = some failure ∧
        compiler.lower callable = (.error failure, compiler) := by
    intro position bad first
    obtain ⟨failure, offends⟩ := Callable.bad_iff.mp bad
    have failed : callable.lower compiler.naming = .error failure :=
      Callable.lower_eq_error_of_first offends fun earlier precedes =>
        Callable.not_bad_iff.mp (first earlier precedes)
    exact ⟨failure, offends, by rw [lower_of_uncached uncached, failed]; rfl⟩
  refine ⟨⟨?_, ?_⟩, reported, ?_⟩
  · rintro ⟨code, accepted⟩ position bad
    obtain ⟨first, first_bad, minimal⟩ := Callable.exists_first_bad bad
    obtain ⟨failure, -, failed⟩ := reported first first_bad minimal
    rw [failed] at accepted
    cases accepted
  · intro good
    obtain ⟨code, lowered⟩ : ∃ code, callable.lower compiler.naming = .ok code :=
      Callable.lower_eq_ok_of_fine fun position => Callable.not_bad_iff.mp (good position)
    exact ⟨code, by rw [lower_of_uncached uncached, remember_fst, lowered]⟩
  · unfold lower
    rw [Callable.lower_filter_isFree]

/-- A call that passes an unknown variable and has an unknown result, behind the end of the use of
a variable that nothing introduces. -/
def careless : Callable where
  kind := .function
  name := "f"
  params := [.ofWord 0]
  body := [.free (.ofWord 9), .const (.ofWord 1) .string "aGk=",
    .call (.ofWord 2) "g" [.ofWord 0, .ofWord 1, .receiver, .ofWord 3], .recurse]

/-- The argument is reported, and neither the result nor the recursive call behind it. -/
theorem careless_reports_first_offence :
    careless.Bad 2 ∧
      ({} : Compiler).lower careless = (.error (.unbound (.ofWord 3)), {}) := by
  have bad : careless.Bad 2 := Callable.bad_iff.mpr ⟨.unbound (.ofWord 3), by decide +kernel⟩
  have first : ∀ earlier < 2, ¬ careless.Bad earlier := by
    intro earlier precedes
    rw [Callable.not_bad_iff]
    interval_cases earlier <;> decide +kernel
  have uncached : ({} : Compiler).cache.get? careless.name = none := rfl
  obtain ⟨failure, offends, reported⟩ :=
    (lower_reports_first_offence uncached).2.1 2 bad first
  have unbound : careless.offenceAt? 2 = some (.unbound (.ofWord 3)) := by decide +kernel
  obtain rfl := Option.some.inj (offends.symm.trans unbound)
  exact ⟨bad, reported⟩

end Compiler

end ScriptLowering
