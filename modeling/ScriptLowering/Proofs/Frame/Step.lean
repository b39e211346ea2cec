import ScriptLowering.Frame.Lower
import ScriptLowering.Proofs.Outcome

/-!
# What one instruction does to a frame

Lowering an instruction either leaves the frame alone, introduces one variable, or emits the
statement of the instruction. The inversion theorem `Frame.lower_cases` says so, and
`Frame.lowerAll_invariant` carries an invariant from instruction to instruction through a whole
body.
-/

namespace ScriptLowering

namespace Instr

/-- The variable that an instruction introduces: the result of a constant or of a declaration. -/
def introduced? : Instr → Option Variable
  | .const result _ _ | .declare result => some result
  | _ => none

/-- The instruction has a place among the statements. -/
def emits : Instr → Bool
  | .free _ | .const _ _ _ | .declare _ => false
  | _ => true

/-- The statement of an instruction, where variables and labels have the given spelling. -/
def statement? (operand : Variable → Option Operand) (labelName : Label → String) :
    Instr → Option Statement
  | .assign result source => do return .assign (← operand result) (← operand source)
  | .fetch result object property => do
      return .fetch (← operand result) (← operand object) property
  | .unary op result value => do return .unary op (← operand result) (← operand value)
  | .binary op result left right => do
      return .binary op (← operand result) (← operand left) (← operand right)
  | .label target => some (.label (labelName target))
  | .jump target => some (.jump (labelName target))
  | .jumpIfFalse condition target => do
      return .jumpIfFalse (← operand condition) (labelName target)
  | .ret none => some (.ret none)
  | .ret (some value) => do return .ret (some (← operand value))
  | .call result callee arguments => do
      return .call (← operand result) callee (← arguments.mapM operand)
  | .const _ _ _ | .declare _ | .free _ | .recurse => none

section Spelling

variable {instr : Instr} {operand other : Variable → Option Operand}
  {labelName otherName : Label → String}

/-- The statement of an instruction depends only on what its own variables and its own label are
called. -/
theorem statement?_congr (operands : ∀ subject ∈ instr.mentions, operand subject = other subject)
    (labels : ∀ label ∈ instr.label?, labelName label = otherName label) :
    instr.statement? operand labelName = instr.statement? other otherName := by
  cases instr with
  | call result callee arguments =>
      have same : arguments.mapM operand = arguments.mapM other :=
        mapM_congr fun argument passed =>
          operands argument (by simp [mentions, Instr.operands, passed])
      simp_all [statement?, mentions, Instr.operands, result?]
  | ret value => cases value <;> simp_all [statement?, mentions, Instr.operands, result?]
  | _ => simp_all [statement?, mentions, Instr.operands, result?, label?]

/-- An instruction has a statement only if all of its variables are called something. -/
theorem exists_operand_of_statement? {statement : Statement}
    (spelled : instr.statement? operand labelName = some statement) :
    ∀ subject ∈ instr.mentions, ∃ binding, operand subject = some binding := by
  cases instr with
  | call result callee arguments =>
      simp only [statement?, bind, Option.bind_eq_some_iff, mapM_eq_some] at spelled
      obtain ⟨resultOperand, resultCalled, passed, argumentsCalled, -⟩ := spelled
      simp only [mentions, operands, result?, Option.toList_some, List.mem_append,
        List.mem_singleton]
      rintro subject (mem | rfl)
      · have converted : operand subject ∈ arguments.map operand := List.mem_map_of_mem mem
        rw [argumentsCalled] at converted
        obtain ⟨binding, -, same⟩ := List.mem_map.mp converted
        exact ⟨binding, same.symm⟩
      · exact ⟨resultOperand, resultCalled⟩
  | ret value =>
      cases value with
      | none => simp [mentions, operands, result?]
      | some value =>
          simp only [statement?, bind, Option.bind_eq_some_iff] at spelled
          obtain ⟨binding, valueCalled, -⟩ := spelled
          simp [mentions, operands, result?, valueCalled]
  | jumpIfFalse condition target =>
      simp only [statement?, bind, Option.bind_eq_some_iff] at spelled
      obtain ⟨binding, conditionCalled, -⟩ := spelled
      simp [mentions, operands, result?, conditionCalled]
  | assign result operand | fetch result operand _ | unary _ result operand =>
      simp only [statement?, bind, Option.bind_eq_some_iff] at spelled
      obtain ⟨_, resultCalled, _, operandCalled, -⟩ := spelled
      simp [mentions, operands, result?, resultCalled, operandCalled]
  | binary op result left right =>
      simp only [statement?, bind, Option.bind_eq_some_iff] at spelled
      obtain ⟨_, resultCalled, _, leftCalled, _, rightCalled, -⟩ := spelled
      simp [mentions, operands, result?, resultCalled, leftCalled, rightCalled]
  | label _ | jump _ => simp [mentions, operands, result?]
  | const _ _ _ | declare _ | free _ | recurse => cases spelled

end Spelling

end Instr

namespace Frame

variable {κ σ : Type} (frame : Frame κ σ)

/-- The name of a label among those that a frame has given. -/
def labelName (label : Label) : String :=
  frame.naming.labelName (frame.labels.idxOf label + 1)

/-- The frame after the label of an instruction, if there is one, has been given a name. -/
def note (instr : Instr) : Frame κ σ :=
  match instr.label? with
  | some label => (frame.mention label).2
  | none => frame

theorem resolve_eq_ok {subject : Variable} {binding : Binding κ} :
    frame.resolve subject = .ok binding ↔ frame.binding? subject = some binding := by
  unfold resolve
  cases frame.binding? subject <;> simp

theorem mapM_resolve_eq_ok {subjects : List Variable} {bindings : List (Binding κ)} :
    subjects.mapM frame.resolve = .ok bindings ↔
      subjects.mapM frame.binding? = some bindings := by
  induction subjects generalizing bindings with
  | nil => simp [pure, Except.pure]
  | cons subject rest induction =>
      simp only [List.mapM_cons, Except.bind_eq_ok, resolve_eq_ok, induction]
      simp [pure, Except.pure, Option.bind_eq_some_iff]

theorem mention_eq (label : Label) :
    frame.mention label = ((frame.mention label).2.labelName label, (frame.mention label).2) := by
  unfold mention labelName
  cases place : frame.labels.idxOf? label with
  | none =>
      have absent : label ∉ frame.labels := List.idxOf?_eq_none_iff.mp place
      simp [List.idxOf_append_of_notMem absent]
  | some index =>
      rw [List.idxOf_eq_getD_idxOf?, place]
      rfl

/-- An instruction with a place among the statements emits its statement, whose variables are
called what the frame calls them. -/
theorem lower_of_emits {frame next : Frame Literal Statement} {instr : Instr}
    (emits : instr.emits) (lowered : frame.lower instr = .ok next) :
    ∃ statement,
      instr.statement? frame.binding? (frame.note instr).labelName = some statement ∧
        next = (frame.note instr).emit statement := by
  cases instr with
  | free _ | const _ _ _ | declare _ => cases emits
  | assign result source =>
      obtain ⟨_, resultCalled, lowered⟩ := Except.bind_eq_ok.mp lowered
      obtain ⟨_, sourceCalled, lowered⟩ := Except.bind_eq_ok.mp lowered
      rw [resolve_eq_ok] at resultCalled sourceCalled
      exact ⟨_, by simp [Instr.statement?, resultCalled, sourceCalled],
        (Except.ok.inj lowered).symm⟩
  | fetch result object property =>
      obtain ⟨_, resultCalled, lowered⟩ := Except.bind_eq_ok.mp lowered
      obtain ⟨_, objectCalled, lowered⟩ := Except.bind_eq_ok.mp lowered
      rw [resolve_eq_ok] at resultCalled objectCalled
      exact ⟨_, by simp [Instr.statement?, resultCalled, objectCalled],
        (Except.ok.inj lowered).symm⟩
  | unary op result operand =>
      obtain ⟨_, resultCalled, lowered⟩ := Except.bind_eq_ok.mp lowered
      obtain ⟨_, operandCalled, lowered⟩ := Except.bind_eq_ok.mp lowered
      rw [resolve_eq_ok] at resultCalled operandCalled
      exact ⟨_, by simp [Instr.statement?, resultCalled, operandCalled],
        (Except.ok.inj lowered).symm⟩
  | binary op result left right =>
      obtain ⟨_, resultCalled, lowered⟩ := Except.bind_eq_ok.mp lowered
      obtain ⟨_, leftCalled, lowered⟩ := Except.bind_eq_ok.mp lowered
      obtain ⟨_, rightCalled, lowered⟩ := Except.bind_eq_ok.mp lowered
      rw [resolve_eq_ok] at resultCalled leftCalled rightCalled
      exact ⟨_, by simp [Instr.statement?, resultCalled, leftCalled, rightCalled],
        (Except.ok.inj lowered).symm⟩
  | label target | jump target =>
      simp only [lower] at lowered
      rw [mention_eq] at lowered
      exact ⟨_, rfl, (Except.ok.inj lowered).symm⟩
  | jumpIfFalse condition target =>
      obtain ⟨_, conditionCalled, lowered⟩ := Except.bind_eq_ok.mp lowered
      rw [resolve_eq_ok] at conditionCalled
      rw [mention_eq] at lowered
      exact ⟨_, by simp [Instr.statement?, conditionCalled, note, Instr.label?],
        (Except.ok.inj lowered).symm⟩
  | ret value =>
      cases value with
      | none => exact ⟨_, rfl, (Except.ok.inj lowered).symm⟩
      | some value =>
          obtain ⟨_, valueCalled, lowered⟩ := Except.bind_eq_ok.mp lowered
          rw [resolve_eq_ok] at valueCalled
          exact ⟨_, by simp [Instr.statement?, valueCalled], (Except.ok.inj lowered).symm⟩
  | call result callee arguments =>
      obtain ⟨_, argumentsCalled, lowered⟩ := Except.bind_eq_ok.mp lowered
      obtain ⟨_, resultCalled, lowered⟩ := Except.bind_eq_ok.mp lowered
      rw [mapM_resolve_eq_ok] at argumentsCalled
      rw [resolve_eq_ok] at resultCalled
      exact ⟨_, by simp [Instr.statement?, resultCalled, argumentsCalled],
        (Except.ok.inj lowered).symm⟩
  | recurse => cases lowered

/-- Everything that lowering an instruction can do, and the conditions on which it does it. -/
theorem lower_cases {frame next : Frame Literal Statement} {instr : Instr}
    (lowered : frame.lower instr = .ok next) :
    (∃ subject, instr = .free subject ∧ next = frame) ∨
      (∃ result type payload value, instr = .const result type payload ∧
        Literal.ofConst type payload = .ok value ∧ next = frame.bindConst result value) ∨
      (∃ result, instr = .declare result ∧ next = (frame.declare result).2) ∨
      ∃ statement, instr.emits ∧
        instr.statement? frame.binding? (frame.note instr).labelName = some statement ∧
        next = (frame.note instr).emit statement := by
  cases emits : instr.emits with
  | true =>
      obtain ⟨statement, spelled, next_eq⟩ := lower_of_emits emits lowered
      exact .inr (.inr (.inr ⟨statement, rfl, spelled, next_eq⟩))
  | false =>
      cases instr with
      | free subject => exact .inl ⟨subject, rfl, (Except.ok.inj lowered).symm⟩
      | const result type payload =>
          obtain ⟨value, decoded, bound⟩ := Except.bind_eq_ok.mp lowered
          exact .inr (.inl
            ⟨result, type, payload, value, rfl, decoded, (Except.ok.inj bound).symm⟩)
      | declare result =>
          exact .inr (.inr (.inl ⟨result, rfl, (Except.ok.inj lowered).symm⟩))
      | _ => cases emits

@[simp]
theorem lowerAll_cons (frame : Frame Literal Statement) (instr : Except Failure Instr)
    (rest : List (Except Failure Instr)) :
    frame.lowerAll (instr :: rest) = instr >>= frame.lower >>= (·.lowerAll rest) := by
  simp only [lowerAll, List.foldlM_cons]

@[simp]
theorem lowerAll_append (frame : Frame Literal Statement)
    (front back : List (Except Failure Instr)) :
    frame.lowerAll (front ++ back) = frame.lowerAll front >>= (·.lowerAll back) := by
  simp only [lowerAll, List.foldlM_append]

/-- What every instruction preserves, a body preserves. The invariant may speak of the
instructions that have been lowered so far. -/
theorem lowerAll_invariant (invariant : List Instr → Frame Literal Statement → Prop)
    (step : ∀ before instr frame next, invariant before frame →
      frame.lower instr = .ok next → invariant (before ++ [instr]) next)
    {body : List Instr} {frame final : Frame Literal Statement}
    (initially : invariant [] frame) (lowered : frame.lowerAll (body.map .ok) = .ok final) :
    invariant body final := by
  suffices onwards : ∀ before, invariant before frame → invariant (before ++ body) final from
    onwards [] initially
  clear initially
  induction body generalizing frame with
  | nil =>
      obtain rfl : frame = final := Except.ok.inj lowered
      simp
  | cons instr body induction =>
      intro before holds
      rw [List.map_cons, lowerAll_cons] at lowered
      obtain ⟨next, head, tail⟩ := Except.bind_eq_ok.mp lowered
      rw [List.append_cons before instr body]
      exact induction tail _ (step before instr frame next holds head)

/-- Each instruction of a body that is accepted has been lowered in some frame. -/
theorem exists_lower_of_mem {body : List Instr} {frame final : Frame Literal Statement}
    (lowered : frame.lowerAll (body.map .ok) = .ok final) {instr : Instr} (listed : instr ∈ body) :
    ∃ before after : Frame Literal Statement, before.lower instr = .ok after := by
  refine lowerAll_invariant (fun lowered _ => instr ∈ lowered →
    ∃ before after : Frame Literal Statement, before.lower instr = .ok after) ?_ nofun lowered
    listed
  intro before last frame next known head listed
  rcases List.mem_append.mp listed with earlier | last
  · exact known earlier
  · obtain rfl := List.mem_singleton.mp last
    exact ⟨frame, next, head⟩

/-- All constants of a body that is accepted can be decoded. -/
theorem ofConst_of_lowerAll {body : List Instr} {frame final : Frame Literal Statement}
    (lowered : frame.lowerAll (body.map .ok) = .ok final) {result : Variable} {type : ConstType}
    {payload : String} (listed : .const result type payload ∈ body) :
    ∃ value, Literal.ofConst type payload = .ok value := by
  obtain ⟨before, after, head⟩ := exists_lower_of_mem lowered listed
  obtain ⟨value, decoded, -⟩ := Except.bind_eq_ok.mp head
  exact ⟨value, decoded⟩

theorem recurse_notMem_of_lowerAll {body : List Instr} {frame final : Frame Literal Statement}
    (lowered : frame.lowerAll (body.map .ok) = .ok final) : .recurse ∉ body := by
  intro listed
  obtain ⟨before, after, head⟩ := exists_lower_of_mem lowered listed
  cases head

end Frame

end ScriptLowering
