import ScriptLowering.Proofs.Frame.ClosedForm

/-!
# Scopes

Different variables never share a name. If a callable introduces each of its variables only once,
a variable moreover keeps its name from its introduction to the end of the body, so that one scope
serves all statements.
-/

namespace ScriptLowering

theorem toString_nat_injective : Function.Injective (toString : Nat → String) := by
  intro left right equal
  have digits : Nat.toDigits 10 left = Nat.toDigits 10 right := by
    rw [Nat.toString_eq_ofList_toDigits, Nat.toString_eq_ofList_toDigits] at equal
    exact String.ofList_injective equal
  rw [← Nat.ofDigitChars_ten_toDigits (n := left), digits, Nat.ofDigitChars_ten_toDigits]

namespace Naming

variable (naming : Naming)

theorem variableName_injective : Function.Injective naming.variableName := fun _ _ equal =>
  toString_nat_injective ((String.append_right_inj _).mp equal)

theorem labelName_injective : Function.Injective naming.labelName := fun _ _ equal =>
  toString_nat_injective ((String.append_right_inj _).mp equal)

variable {naming} {params : List Variable} {before : List Instr} {subject : Variable}

theorem getElem?_of_lastPlace? {place : Nat} (last : subject.lastPlace? params = some place) :
    params[place]? = some subject := by
  obtain ⟨⟨param, _⟩, found, rfl⟩ := Option.map_eq_some_iff.mp last
  have listed := List.mem_of_find?_eq_some found
  rw [List.mem_reverse, List.mk_mem_zipIdx_iff_getElem?] at listed
  obtain rfl : param = subject := by simpa using List.find?_some found
  exact listed

/-- In front of all instructions, only parameters and the receiver have names. -/
theorem operand?_nil_cases {operand : Operand}
    (called : naming.operand? params [] subject = some operand) :
    (∃ place, subject.lastPlace? params = some place ∧
        operand = .name (naming.variableName (place + 2))) ∨
      (subject = .receiver ∧ operand = .name naming.receiver) := by
  simp only [operand?, Instr.latestIntroduction?, List.zipIdx_nil, List.reverse_nil,
    List.find?_nil] at called
  split at called
  · rename_i place last
    exact .inl ⟨place, last, (Option.some.inj called).symm⟩
  · split at called
    · rename_i receiver
      exact .inr ⟨receiver, (Option.some.inj called).symm⟩
    · cases called

/-- An introduction that calls its variable by a name takes the next slot for it. -/
theorem name_of_introducedOperand? {instr : Instr} {name : String}
    (called : naming.introducedOperand? params before instr = some (.name name)) :
    name = naming.variableName
      (params.length + 2 + before.countP fun instr => instr.introduced?.isSome) := by
  unfold introducedOperand? at called
  split at called
  · obtain ⟨_, -, literal⟩ := Option.map_eq_some_iff.mp called
    cases literal
  · exact (Binding.name.inj (Option.some.inj called)).symm

/-- A name is the receiver's own or that of a slot that has been taken. -/
theorem slot_of_operand? {name : String}
    (called : naming.operand? params before subject = some (.name name)) :
    (subject = .receiver ∧ name = naming.receiver) ∨
      ∃ slot, name = naming.variableName slot ∧
        slot < params.length + 2 + before.countP fun instr => instr.introduced?.isSome := by
  induction before using List.reverseRecOn with
  | nil =>
      rcases operand?_nil_cases called with ⟨place, last, name_eq⟩ | ⟨receiver, name_eq⟩
      · obtain ⟨inside, -⟩ := List.getElem?_eq_some_iff.mp (getElem?_of_lastPlace? last)
        exact .inr ⟨place + 2, Binding.name.inj name_eq, by simp only [List.countP_nil]; omega⟩
      · exact .inl ⟨receiver, Binding.name.inj name_eq⟩
  | append_singleton before instr induction =>
      rw [operand?_append] at called
      rw [List.countP_append]
      split at called
      · rename_i introduces
        exact .inr ⟨_, name_of_introducedOperand? called, by simp [introduces]⟩
      · rcases induction called with receiver | ⟨slot, name_eq, taken⟩
        · exact .inl receiver
        · exact .inr ⟨slot, name_eq, by omega⟩

/-- Different variables have different names, provided that no slot is called like the
receiver. -/
theorem operand?_name_injective (apart : ∀ slot, naming.receiver ≠ naming.variableName slot)
    {other : Variable} {name : String}
    (called : naming.operand? params before subject = some (.name name))
    (otherCalled : naming.operand? params before other = some (.name name)) :
    subject = other := by
  induction before using List.reverseRecOn with
  | nil =>
      rcases operand?_nil_cases called with ⟨place, last, name_eq⟩ | ⟨rfl, name_eq⟩ <;>
        rcases operand?_nil_cases otherCalled with
          ⟨otherPlace, otherLast, otherName_eq⟩ | ⟨rfl, otherName_eq⟩ <;>
        cases name_eq
      · have places := naming.variableName_injective (Binding.name.inj otherName_eq)
        obtain rfl : place = otherPlace := by omega
        exact Option.some.inj
          ((getElem?_of_lastPlace? last).symm.trans (getElem?_of_lastPlace? otherLast))
      · exact absurd (Binding.name.inj otherName_eq).symm (apart _)
      · exact absurd (Binding.name.inj otherName_eq) (apart _)
      · rfl
  | append_singleton before instr induction =>
      -- The name of a new slot is neither the receiver's nor that of a slot taken before.
      have fresh {known : Variable}
          (introduced : naming.introducedOperand? params before instr = some (.name name))
          (knownCalled : naming.operand? params before known = some (.name name)) : False := by
        have name_eq := name_of_introducedOperand? introduced
        rcases slot_of_operand? knownCalled with ⟨-, receiver⟩ | ⟨slot, slotName, taken⟩
        · exact apart _ (receiver.symm.trans name_eq)
        · have := naming.variableName_injective (slotName.symm.trans name_eq)
          omega
      rw [operand?_append] at called otherCalled
      split at called <;> split at otherCalled
      · rename_i introduces otherIntroduces
        exact Option.some.inj (introduces.symm.trans otherIntroduces)
      · exact (fresh called otherCalled).elim
      · exact (fresh otherCalled called).elim
      · exact induction called otherCalled

/-- Only what has been introduced is called anything, the receiver apart. -/
theorem mem_of_operand? {operand : Operand}
    (called : naming.operand? params before subject = some operand) :
    subject = .receiver ∨ subject ∈ params ++ before.filterMap Instr.introduced? := by
  induction before using List.reverseRecOn with
  | nil =>
      rcases operand?_nil_cases called with ⟨place, last, -⟩ | ⟨receiver, -⟩
      · exact .inr (by simpa using List.mem_of_getElem? (getElem?_of_lastPlace? last))
      · exact .inl receiver
  | append_singleton before instr induction =>
      rw [operand?_append] at called
      rw [List.filterMap_append, ← List.append_assoc, List.mem_append]
      split at called
      · rename_i introduces
        exact .inr (.inr (List.mem_filterMap.mpr ⟨instr, by simp, introduces⟩))
      · exact (induction called).imp_right .inl

/-- Only a constant has its variable called by a literal. -/
theorem const_of_operand? {value : Literal}
    (called : naming.operand? params before subject = some (.literal value)) :
    ∃ type payload, .const subject type payload ∈ before := by
  unfold operand? at called
  split at called
  · rename_i instr place latest
    obtain ⟨standing, introduces⟩ := Instr.getElem?_of_latestIntroduction? latest
    unfold introducedOperand? at called
    split at called
    · obtain rfl := Option.some.inj introduces
      exact ⟨_, _, List.mem_of_getElem? standing⟩
    · cases called
  · split at called
    · cases called
    · split at called <;> cases called

/-- A variable keeps its name as long as it is not introduced again. -/
theorem operand?_append_of_notMem {after : List Instr} {operand : Operand}
    (called : naming.operand? params before subject = some operand)
    (kept : subject ∉ after.filterMap Instr.introduced?) :
    naming.operand? params (before ++ after) subject = some operand := by
  induction after generalizing before with
  | nil => simpa using called
  | cons instr after induction =>
      have silent : instr.introduced? ≠ some subject := fun introduces =>
        kept (List.mem_filterMap.mpr ⟨instr, by simp, introduces⟩)
      rw [List.append_cons]
      apply induction
      · simp [silent, called]
      · exact fun mem => kept (by
          obtain ⟨later, listed, introduces⟩ := List.mem_filterMap.mp mem
          exact List.mem_filterMap.mpr ⟨later, by simp [listed], introduces⟩)

theorem lastPlace?_of_getElem? (nodup : params.Nodup) {place : Nat}
    (standing : params[place]? = some subject) : subject.lastPlace? params = some place := by
  have found : (params.zipIdx.reverse.find? fun entry => entry.1 == subject).isSome := by
    rw [List.find?_isSome]
    refine ⟨(subject, place), ?_, by simp⟩
    rwa [List.mem_reverse, List.mk_mem_zipIdx_iff_getElem?]
  obtain ⟨entry, found⟩ := Option.isSome_iff_exists.mp found
  have last : subject.lastPlace? params = some entry.2 := by rw [Variable.lastPlace?, found]; rfl
  have same := getElem?_of_lastPlace? last
  obtain ⟨inside, -⟩ := List.getElem?_eq_some_iff.mp same
  rw [last, (List.getElem?_inj inside nodup).mp (same.trans standing.symm)]

end Naming

/-- The variable of a constant. -/
def Instr.constant? : Instr → Option Variable
  | .const result _ _ => some result
  | _ => none

namespace Callable

/-- The variables that a callable introduces, its parameters first. -/
def introductions (callable : Callable) : List Variable :=
  callable.params ++ callable.body.filterMap Instr.introduced?

/-- Every variable is introduced at most once and the receiver never, and the variable of a
constant is not the result of any other operation. -/
structure IntroducesOnce (callable : Callable) : Prop where
  nodup : callable.introductions.Nodup
  receiver_notMem : .receiver ∉ callable.introductions
  constant_kept : ∀ constant ∈ callable.body.filterMap Instr.constant?,
    ∀ instr ∈ callable.body, instr.emits → instr.result? ≠ some constant

/-- What variables are called at the end of the body. -/
def scope (callable : Callable) (naming : Naming) : Variable → Option Operand :=
  naming.operand? callable.params callable.body

variable {callable : Callable} {naming : Naming}

/-- What a variable is called at some position, it is called at the end. -/
theorem IntroducesOnce.scope_of_operandAt? (once : callable.IntroducesOnce) {position : Nat}
    {subject : Variable} {operand : Operand}
    (called : callable.operandAt? naming position subject = some operand) :
    callable.scope naming subject = some operand := by
  have nodup := once.nodup
  have receiver_notMem := once.receiver_notMem
  rw [introductions, ← List.take_append_drop position callable.body, List.filterMap_append,
    ← List.append_assoc] at nodup receiver_notMem
  rw [scope, ← List.take_append_drop position callable.body]
  apply Naming.operand?_append_of_notMem called
  rcases Naming.mem_of_operand? called with rfl | introduced
  · exact fun mem => receiver_notMem (List.mem_append_right _ mem)
  · exact List.disjoint_of_nodup_append nodup introduced

theorem IntroducesOnce.scope_receiver (once : callable.IntroducesOnce) :
    callable.scope naming .receiver = some (.name naming.receiver) := by
  have unlisted : Variable.lastPlace? .receiver callable.params = none := by
    cases last : Variable.lastPlace? .receiver callable.params with
    | none => rfl
    | some place =>
        have listed := List.mem_of_getElem? (Naming.getElem?_of_lastPlace? last)
        exact absurd (List.mem_append_left _ listed) once.receiver_notMem
  have called : callable.operandAt? naming 0 .receiver = some (.name naming.receiver) := by
    simp [operandAt?, Naming.operand?, Instr.latestIntroduction?, unlisted]
  exact once.scope_of_operandAt? called

theorem IntroducesOnce.scope_params (once : callable.IntroducesOnce) :
    List.Forall₂ (fun param name => callable.scope naming param = some (.name name))
      callable.params (callable.paramNames naming) := by
  apply List.forall₂_of_length_eq_of_get
  · simp [paramNames]
  · intro place inside _
    have last := Naming.lastPlace?_of_getElem? (List.nodup_append.mp once.nodup).1
      (List.getElem?_eq_getElem inside)
    have called : callable.operandAt? naming 0 callable.params[place] =
        some (.name (naming.variableName (place + 2))) := by
      simp [operandAt?, Naming.operand?, Instr.latestIntroduction?, last]
    simpa [paramNames] using once.scope_of_operandAt? called

/-- One scope serves all statements of the body. -/
theorem IntroducesOnce.statement?_scope (once : callable.IntroducesOnce)
    {final : Frame Literal Statement}
    (lowered : callable.finalFrame naming = .ok final) :
    (callable.body.filter Instr.emits).map
        (fun instr => instr.statement? (callable.scope naming) (callable.labelName naming)) =
      final.emitted.toList.map some := by
  have spelled := (Frame.reflects_lowerAll lowered).spell_eq
  have bodies : callable.body.filter Instr.emits =
      (callable.body.zipIdx.filter fun entry => entry.1.emits).map Prod.fst := by
    conv_lhs => rw [← List.zipIdx_map_fst 0 callable.body, List.filter_map]
    rfl
  rw [← spelled, Naming.spell, bodies, List.map_map]
  apply List.map_congr_left
  rintro ⟨instr, position⟩ listed
  -- The statement is among those that have been emitted, so all of its variables have names.
  have emitted : instr.statement? (callable.operandAt? naming position)
      (callable.labelName naming) ∈ naming.spell callable.params callable.body :=
    List.mem_map.mpr ⟨_, listed, rfl⟩
  rw [spelled] at emitted
  obtain ⟨statement, -, statement_eq⟩ := List.mem_map.mp emitted
  apply Instr.statement?_congr
  · intro subject mentioned
    obtain ⟨operand, called⟩ :=
      Instr.exists_operand_of_statement? statement_eq.symm subject mentioned
    exact (once.scope_of_operandAt? called).trans called.symm
  · exact fun _ _ => rfl

/-- Whatever an emitted statement writes has a name. -/
theorem IntroducesOnce.scope_result (once : callable.IntroducesOnce)
    {final : Frame Literal Statement}
    (lowered : callable.finalFrame naming = .ok final)
    {instr : Instr} (listed : instr ∈ callable.body) (emits : instr.emits) {result : Variable}
    (writes : instr.result? = some result) :
    ∃ name, callable.scope naming result = some (.name name) := by
  have emitted : instr.statement? (callable.scope naming) (callable.labelName naming) ∈
      (callable.body.filter Instr.emits).map fun instr =>
        instr.statement? (callable.scope naming) (callable.labelName naming) :=
    List.mem_map.mpr ⟨instr, List.mem_filter.mpr ⟨listed, emits⟩, rfl⟩
  rw [once.statement?_scope lowered] at emitted
  obtain ⟨statement, -, statement_eq⟩ := List.mem_map.mp emitted
  have mentioned : result ∈ instr.mentions := by
    cases instr <;> simp_all [Instr.mentions, Instr.result?]
  obtain ⟨operand, called⟩ :=
    Instr.exists_operand_of_statement? statement_eq.symm result mentioned
  cases operand with
  | name name => exact ⟨name, called⟩
  | literal value =>
      obtain ⟨type, payload, constant⟩ := Naming.const_of_operand? called
      exact absurd writes (once.constant_kept result
        (List.mem_filterMap.mpr ⟨_, constant, rfl⟩) instr listed emits)

/-- The variable of a constant stands for its literal. -/
theorem IntroducesOnce.scope_const (once : callable.IntroducesOnce)
    {final : Frame Literal Statement}
    (lowered : callable.finalFrame naming = .ok final)
    {result : Variable} {type : ConstType} {payload : String}
    (listed : .const result type payload ∈ callable.body) :
    ∃ value, Literal.ofConst type payload = .ok value ∧
      callable.scope naming result = some (.literal value) := by
  obtain ⟨value, decoded⟩ := Frame.ofConst_of_lowerAll lowered listed
  obtain ⟨before, after, body_eq⟩ := List.append_of_mem listed
  have called : callable.operandAt? naming (before.length + 1) result =
      some (.literal value) := by
    rw [operandAt?, body_eq, List.append_cons, List.take_left' (by simp)]
    simp [Instr.introduced?, Naming.introducedOperand?, decoded, Except.toOption]
  exact ⟨value, decoded, once.scope_of_operandAt? called⟩

end Callable

end ScriptLowering
