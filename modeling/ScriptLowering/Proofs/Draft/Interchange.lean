import ScriptLowering.Proofs.Draft.Substitution
import ScriptLowering.Proofs.Frame.ClosedForm

/-!
# Variables with the same text

Lowered code shows the text of what it reads and not which variable has been read. So one variable
may be read in place of another wherever both have the same text. The proof compares two frames by
`Frame.written`, which keeps of the statements only their texts: instructions that are alike and
read the same texts do the same to frames that are written alike.
-/

namespace ScriptLowering

namespace Frame

/-- The frame with the texts of its statements in place of the statements. -/
def written (frame : Frame Literal Statement) : Frame Literal String where
  naming := frame.naming
  bindings := frame.bindings
  labels := frame.labels
  nextSlot := frame.nextSlot
  emitted := frame.emitted.map Statement.render

/-- The text of a variable. -/
def text {σ : Type} (frame : Frame Literal σ) (subject : Variable) : Except Failure String :=
  (frame.resolve subject).map Operand.render

section Operations

variable (frame : Frame Literal Statement)

@[simp]
theorem written_introduce (subject : Variable) (operand : Operand) :
    (frame.introduce subject operand).written = frame.written.introduce subject operand :=
  rfl

@[simp]
theorem written_declare (subject : Variable) :
    (frame.declare subject).2.written = (frame.written.declare subject).2 :=
  rfl

@[simp]
theorem written_text : frame.written.text = frame.text :=
  rfl

@[simp]
theorem written_emit (statement : Statement) :
    (frame.emit statement).written = frame.written.emit statement.render := by
  simp only [emit, written, Array.map_push]

@[simp]
theorem written_mention (label : Label) :
    frame.written.mention label = ((frame.mention label).1, (frame.mention label).2.written) := by
  simp only [mention, written]
  cases frame.labels.idxOf? label <;> rfl

@[simp]
theorem written_output : frame.written.output id = frame.output Statement.render := by
  simp only [output, written, Array.toList_map, List.map_id]

end Operations

variable {left right : Frame Literal Statement}

theorem text_congr (same : left.written = right.written) : left.text = right.text := by
  rw [← written_text, same, written_text]

theorem emit_congr (same : left.written = right.written) {statement other : Statement}
    (spelled : statement.render = other.render) :
    (left.emit statement).written = (right.emit other).written := by
  simp [same, spelled]

theorem mention_congr (same : left.written = right.written) (label : Label) :
    (left.mention label).1 = (right.mention label).1 ∧
      (left.mention label).2.written = (right.mention label).2.written := by
  have mentioned := left.written_mention label
  rw [same, written_mention] at mentioned
  exact ⟨(Prod.mk.inj mentioned).1.symm, (Prod.mk.inj mentioned).2.symm⟩

theorem mapM_resolve_congr {subjects others : List Variable}
    (texts : List.Forall₂ (fun operand rival => left.text operand = right.text rival)
      subjects others) :
    (subjects.mapM left.resolve).map (List.map Operand.render) =
      (others.mapM right.resolve).map (List.map Operand.render) := by
  induction texts with
  | nil => rfl
  | cons first _ induction =>
      rw [List.mapM_cons, List.mapM_cons]
      apply Except.map_bind_congr first
      intro binding rival _ binding_eq
      apply Except.map_bind_congr induction
      intro bindings rivals _ bindings_eq
      simp only [Except.map, pure, Except.pure, List.map_cons, binding_eq, bindings_eq]

/-- Instructions that are alike and read the same texts do the same to frames that are written
alike, and fail alike. -/
theorem lower_congr {instr other : Instr} (same : left.written = right.written)
    (alike : instr.Alike other)
    (texts : List.Forall₂ (fun operand rival => left.text operand = right.text rival)
      instr.operands other.operands) :
    (left.lower instr).map written = (right.lower other).map written := by
  have text_eq (subject : Variable) : left.text subject = right.text subject := by
    rw [text_congr same]
  cases alike with
  | free _ => exact congrArg Except.ok same
  | recurse => rfl
  | declare result => simp [lower, Except.map, same]
  | const result type payload =>
      rw [lower, lower]
      cases Literal.ofConst type payload with
      | error failure => rfl
      | ok value =>
          apply congrArg Except.ok
          simp [bindConst, same]
  | assign result operand rival | fetch result operand rival _ | unary _ result operand rival =>
      obtain ⟨operand_text, -⟩ := List.forall₂_cons.mp texts
      apply Except.map_bind_congr (text_eq result)
      intro binding other _ binding_eq
      apply Except.map_bind_congr operand_text
      intro operand rival _ operand_eq
      apply congrArg Except.ok
      apply emit_congr same
      simp only [Statement.render, binding_eq, operand_eq]
  | binary op result first second firstRival secondRival =>
      obtain ⟨first_text, texts⟩ := List.forall₂_cons.mp texts
      obtain ⟨second_text, -⟩ := List.forall₂_cons.mp texts
      apply Except.map_bind_congr (text_eq result)
      intro binding other _ binding_eq
      apply Except.map_bind_congr first_text
      intro first firstRival _ first_eq
      apply Except.map_bind_congr second_text
      intro second secondRival _ second_eq
      apply congrArg Except.ok
      apply emit_congr same
      simp only [Statement.render, binding_eq, first_eq, second_eq]
  | label target | jump target =>
      obtain ⟨name_eq, mentioned⟩ := mention_congr same target
      simp only [lower]
      apply congrArg Except.ok
      apply emit_congr mentioned
      simp only [Statement.render, name_eq]
  | jumpIfFalse condition rival target =>
      obtain ⟨condition_text, -⟩ := List.forall₂_cons.mp texts
      obtain ⟨name_eq, mentioned⟩ := mention_congr same target
      simp only [lower]
      apply Except.map_bind_congr condition_text
      intro operand rival _ operand_eq
      apply congrArg Except.ok
      apply emit_congr mentioned
      simp only [Statement.render, name_eq, operand_eq]
  | ret value rival =>
      cases value with
      | none =>
          cases rival with
          | none => exact congrArg Except.ok (emit_congr same rfl)
          | some rival => cases texts
      | some value =>
          cases rival with
          | none => cases texts
          | some rival =>
              obtain ⟨value_text, -⟩ := List.forall₂_cons.mp texts
              apply Except.map_bind_congr value_text
              intro operand rival _ operand_eq
              apply congrArg Except.ok
              apply emit_congr same
              simp only [Statement.render, operand_eq]
  | call result callee arguments rivals =>
      apply Except.map_bind_congr (mapM_resolve_congr texts)
      intro operands rivals _ operands_eq
      apply Except.map_bind_congr (text_eq result)
      intro binding other _ binding_eq
      apply congrArg Except.ok
      apply emit_congr same
      simp only [Statement.render, binding_eq, operands_eq]

theorem text_eq_ok {subject : Variable} {spelling : String} :
    left.text subject = .ok spelling ↔
      (left.binding? subject).map Operand.render = some spelling := by
  rw [text, resolve]
  cases left.binding? subject with
  | none => simp [Except.map]
  | some operand => simp [Except.map]

end Frame

/-- Behind the given instructions both variables are in scope, with the same text. -/
def Naming.SameText (naming : Naming) (params : List Variable) (before : List Instr)
    (first second : Variable) : Prop :=
  ∃ text, (naming.operand? params before first).map Operand.render = some text ∧
    (naming.operand? params before second).map Operand.render = some text

namespace Frame

variable {naming : Naming} {params : List Variable} {before rest : List Instr} {old new : Variable}
  {left right : Frame Literal Statement}

/-- The run in which the old variable is read and the one in which the new one is read instead stay
written alike from instruction to instruction. -/
theorem lowerAll_replaceOperand (reflects : Reflects naming params before left)
    (same : left.written = right.written)
    (sameText : ∀ place instr, rest[place]? = some instr → instr.reads old →
      naming.SameText params (before ++ rest.take place) old new) :
    (left.lowerAll (rest.map .ok)).map written =
      (right.lowerAll ((rest.map (Instr.replaceOperand old new)).map .ok)).map written := by
  -- The induction is on what is left of the body. That the first frame reflects what has been
  -- lowered gives the texts of both variables in it.
  induction rest generalizing before left right with
  | nil => exact congrArg Except.ok same
  | cons instr rest induction =>
      have texts : List.Forall₂ (fun operand rival => left.text operand = right.text rival)
          instr.operands (instr.replaceOperand old new).operands := by
        rw [Instr.operands_replaceOperand, List.forall₂_map_right_iff, List.forall₂_same]
        intro operand listed
        rw [← text_congr same]
        by_cases replaced : operand = old
        · obtain ⟨text, old_text, new_text⟩ :=
            sameText 0 instr rfl (Instr.reads_iff.mpr (replaced ▸ listed))
          rw [List.take_zero, List.append_nil, ← reflects.binding?_eq, ← text_eq_ok]
            at old_text new_text
          rw [if_pos replaced, replaced, old_text, new_text]
        · rw [if_neg replaced]
      simp only [List.map_cons, lowerAll_cons]
      apply Except.map_bind_congr
        (lower_congr same (Instr.alike_replaceOperand old new instr) texts)
      intro next other lowered written_eq
      apply induction (reflects.lower lowered) written_eq
      intro place later standing reads
      rw [List.append_assoc]
      exact sameText (place + 1) later standing reads

end Frame

theorem Callable.lower_eq_map_written (callable : Callable) (naming : Naming) :
    callable.lower naming =
      ((callable.finalFrame naming).map Frame.written).map fun final =>
        Script.function callable.name
          ((Frame.start naming : Frame Literal Statement).declareAll callable.params).1
          (final.output id) := by
  simp only [Callable.lower, Header.lower, Callable.finalFrame]
  cases ((Frame.start naming).declareAll callable.params).2.lowerAll (callable.body.map .ok) with
  | error failure => rfl
  | ok final =>
      simp only [Except.map, Frame.written_output]
      rfl

namespace Compiler

/-- If at every instruction that reads the old variable the new one has the same text, then reading
the new one instead makes no difference to lowering: the code, the failure and what is remembered
are the same. -/
theorem replacement_is_invisible (compiler : Compiler) (draft : Draft) (name : String)
    (params : List Variable) (old new : Variable)
    (sameText : ∀ place ∈ draft.readersOf old,
      compiler.naming.SameText params (draft.instrs.toList.take place) old new) :
    compiler.lower ((draft.replace old new).2.toCallable name params) =
      compiler.lower (draft.toCallable name params) := by
  have body_eq : ((draft.replace old new).2.toCallable name params).body =
      draft.instrs.toList.map (Instr.replaceOperand old new) := by
    rw [Draft.toCallable, Draft.replace_eq, Array.toList_map]
  have frames_eq : ((draft.toCallable name params).finalFrame compiler.naming).map Frame.written =
      (((draft.replace old new).2.toCallable name params).finalFrame compiler.naming).map
        Frame.written := by
    rw [Callable.finalFrame, Callable.finalFrame, body_eq]
    apply Frame.lowerAll_replaceOperand (Frame.reflects_start compiler.naming params) rfl
    intro place instr standing reads
    rw [List.nil_append]
    have standing : draft.instrs[place]? = some instr := by rwa [← Array.getElem?_toList]
    exact sameText place (Draft.mem_readersOf.mpr ⟨instr, standing, reads⟩)
  have lowered : ((draft.replace old new).2.toCallable name params).lower compiler.naming =
      (draft.toCallable name params).lower compiler.naming := by
    rw [Callable.lower_eq_map_written, Callable.lower_eq_map_written, frames_eq]
    rfl
  rw [lower, lower, lowered]
  rfl

/-- Two constants that are spelled differently and have the same text. One of them is read three
times, then freed, and then the same variable is declared and written. -/
def twins : Draft where
  instrs := #[.const (.ofWord 1) .long "07", .const (.ofWord 2) .numeric " 7 apples",
    .declare (.ofWord 3), .binary .add (.ofWord 3) (.ofWord 1) (.ofWord 1),
    .call (.ofWord 3) "f" [.ofWord 1, .ofWord 0, .ofWord 3], .free (.ofWord 1),
    .declare (.ofWord 1), .assign (.ofWord 1) (.ofWord 3), .ret (some (.ofWord 2))]
  nextVariable := 4

/-- The code of that draft. -/
def twinsCode : String :=
  "function f($var2) " ++ Script.braced
    "\n$var5 = 7 + 7;\n$var5 = f(7, $var2, $var5);\n$var6 = $var5;\nreturn 7;\n"

theorem twins_replacement_is_invisible :
    (∀ place ∈ twins.readersOf (.ofWord 1),
      ({} : Naming).SameText [.ofWord 0] (twins.instrs.toList.take place) (.ofWord 1)
        (.ofWord 2)) ∧
      twins.readersOf (.ofWord 1) = [3, 4] ∧
      (({} : Compiler).lower
        ((twins.replace (.ofWord 1) (.ofWord 2)).2.toCallable "f" [.ofWord 0])).1 =
          .ok twinsCode := by
  have readers : twins.readersOf (.ofWord 1) = [3, 4] := by decide
  have sameText : ∀ place ∈ twins.readersOf (.ofWord 1),
      ({} : Naming).SameText [.ofWord 0] (twins.instrs.toList.take place) (.ofWord 1)
        (.ofWord 2) := by
    rw [readers, List.forall_mem_cons, List.forall_mem_singleton]
    exact ⟨⟨"7", by decide +kernel, by decide +kernel⟩, "7", by decide +kernel, by decide +kernel⟩
  refine ⟨sameText, readers, ?_⟩
  rw [replacement_is_invisible {} twins "f" [.ofWord 0] (.ofWord 1) (.ofWord 2) sameText]
  decide +kernel

end Compiler

end ScriptLowering
