import ScriptLowering.Proofs.Frame.Scope

/-!
# What assignments assign to

The result of an operation is called by whatever its variable stands for at that place, and a
variable may stand for a literal. This file says when that happens: the target of an assignment is
a literal exactly if the latest introduction of its variable is a constant, and otherwise a name.
Where no constant shares its variable with the result of an operation, all assignments therefore
assign to names.
-/

namespace ScriptLowering

/-- What an assignment assigns to. Other statements do not assign. -/
def Statement.target? : Statement → Option Operand
  | .assign result _ | .fetch result _ _ | .unary _ result _ | .binary _ result _ _
  | .call result _ _ => some result
  | .label _ | .jump _ | .jumpIfFalse _ _ | .ret _ => none

/-- An assignment starts with its target. -/
theorem Statement.exists_render_of_target? {statement : Statement} {target : Operand}
    (assigns : statement.target? = some target) :
    ∃ source, statement.render = target.render ++ " = " ++ source := by
  cases statement with
  | assign _ _ | fetch _ _ _ | unary _ _ _ | binary _ _ _ _ | call _ _ _ =>
      obtain rfl := Option.some.inj assigns
      simp only [render, String.append_assoc, String.append_right_inj, exists_eq']
  | label _ | jump _ | jumpIfFalse _ _ | ret _ => cases assigns

/-- The target of the statement of an instruction is what its result is called. -/
theorem Instr.target?_of_statement? {instr : Instr} {operand : Variable → Option Operand}
    {labelName : Label → String} {statement : Statement}
    (spelled : instr.statement? operand labelName = some statement) :
    statement.target? = instr.result?.bind operand := by
  cases instr with
  | assign _ _ | fetch _ _ _ | unary _ _ _ | call _ _ _ =>
      simp only [statement?, bind, Option.bind_eq_some_iff] at spelled
      obtain ⟨target, called, _, -, statement_eq⟩ := spelled
      obtain rfl := Option.some.inj statement_eq
      exact called.symm
  | binary _ _ _ _ =>
      simp only [statement?, bind, Option.bind_eq_some_iff] at spelled
      obtain ⟨target, called, _, -, _, -, statement_eq⟩ := spelled
      obtain rfl := Option.some.inj statement_eq
      exact called.symm
  | jumpIfFalse _ _ =>
      simp only [statement?, bind, Option.bind_eq_some_iff] at spelled
      obtain ⟨_, -, statement_eq⟩ := spelled
      obtain rfl := Option.some.inj statement_eq
      rfl
  | ret value =>
      cases value with
      | none =>
          obtain rfl := Option.some.inj spelled
          rfl
      | some value =>
          simp only [statement?, bind, Option.bind_eq_some_iff] at spelled
          obtain ⟨_, -, statement_eq⟩ := spelled
          obtain rfl := Option.some.inj statement_eq
          rfl
  | label _ | jump _ =>
      obtain rfl := Option.some.inj spelled
      rfl
  | const _ _ _ | declare _ | free _ | recurse => cases spelled

theorem Instr.result_mem_mentions {instr : Instr} {result : Variable}
    (writes : instr.result? = some result) : result ∈ instr.mentions := by
  cases instr <;> simp_all [mentions, result?]

/-- The latest of the introductions of a variable is a constant with the given value. -/
def Instr.LeavesConstant (before : List Instr) (subject : Variable) (value : Literal) : Prop :=
  ∃ type payload place,
    latestIntroduction? before subject = some (.const subject type payload, place) ∧
      Literal.ofConst type payload = .ok value

namespace Naming

variable {naming : Naming} {params : List Variable} {before : List Instr} {subject : Variable}

theorem introducedOperand?_eq_literal {instr : Instr} {value : Literal} :
    naming.introducedOperand? params before instr = some (.literal value) ↔
      ∃ result type payload, instr = .const result type payload ∧
        Literal.ofConst type payload = .ok value := by
  cases instr with
  | const result type payload =>
      cases read : Literal.ofConst type payload <;>
        simp [introducedOperand?, read, Except.toOption]
  | _ => simp [introducedOperand?]

/-- A variable is called by a literal exactly if its latest introduction is a constant, for
parameters and the receiver have names. -/
theorem operand?_eq_literal {value : Literal} :
    naming.operand? params before subject = some (.literal value) ↔
      Instr.LeavesConstant before subject value := by
  rw [operand?, Instr.LeavesConstant]
  cases latest : Instr.latestIntroduction? before subject with
  | none =>
      cases subject.lastPlace? params with
      | some place => simp
      | none => by_cases receiver : subject = .receiver <;> simp [receiver]
  | some entry =>
      obtain ⟨instr, place⟩ := entry
      obtain ⟨-, introduces⟩ := Instr.getElem?_of_latestIntroduction? latest
      dsimp only
      rw [introducedOperand?_eq_literal]
      constructor
      · rintro ⟨result, type, payload, rfl, read⟩
        obtain rfl := Option.some.inj introduces
        exact ⟨type, payload, place, rfl, read⟩
      · rintro ⟨type, payload, found, entry_eq, read⟩
        obtain ⟨rfl, -⟩ := Prod.mk.inj (Option.some.inj entry_eq)
        exact ⟨subject, type, payload, rfl, read⟩

end Naming

namespace Callable

/-- No operation has the variable of a constant for its result. -/
def KeepsConstants (callable : Callable) : Prop :=
  ∀ constant ∈ callable.body.filterMap Instr.constant?, ∀ instr ∈ callable.body, instr.emits →
    instr.result? ≠ some constant

/-- How a statement assigns if it belongs to the instruction at a position of the body. -/
structure AssignsAt (callable : Callable) (naming : Naming) (entry : Instr × Nat)
    (statement : Statement) : Prop where
  /-- It assigns exactly if the instruction has a result. -/
  assigns_iff : statement.target?.isSome ↔ entry.1.result?.isSome
  /-- Its target is what that result is called at the position. -/
  target_eq : statement.target? = entry.1.result?.bind (callable.operandAt? naming entry.2)
  /-- Its target is a literal exactly if the latest introduction of the result is a constant. -/
  literal_iff : ∀ result ∈ entry.1.result?, ∀ value, statement.target? = some (.literal value) ↔
    Instr.LeavesConstant (callable.body.take entry.2) result value
  /-- Any other target is the name of the receiver or of a slot that has been taken. -/
  name_eq : ∀ result ∈ entry.1.result?, ∀ name, statement.target? = some (.name name) →
    (result = .receiver ∧ name = naming.receiver) ∨ ∃ slot, name = naming.variableName slot ∧
      slot < callable.params.length + 2 +
        (callable.body.take entry.2).countP fun instr => instr.introduced?.isSome

variable {callable : Callable} {naming : Naming} {final : Frame Literal Statement}

theorem assignsAt_of_statement? {instr : Instr} {position : Nat} {labelName : Label → String}
    {statement : Statement}
    (spelled : instr.statement? (callable.operandAt? naming position) labelName =
      some statement) :
    callable.AssignsAt naming (instr, position) statement := by
  have target_eq := Instr.target?_of_statement? spelled
  have target_of_result : ∀ result, instr.result? = some result →
      statement.target? = callable.operandAt? naming position result := by
    intro result result_eq
    rw [target_eq, result_eq, Option.bind_some]
  refine ⟨?_, target_eq, fun result result_eq value => ?_, fun result result_eq name named => ?_⟩
  · cases result_eq : instr.result? with
    | none => simp [target_eq, result_eq]
    | some result =>
        obtain ⟨operand, called⟩ := Instr.exists_operand_of_statement? spelled result
          (Instr.result_mem_mentions result_eq)
        simp [target_of_result result result_eq, called]
  · rw [target_of_result result result_eq]
    exact Naming.operand?_eq_literal
  · rw [target_of_result result result_eq] at named
    exact Naming.slot_of_operand? named

/-- Every statement of an accepted callable belongs to an instruction, and assigns to what the
result of that instruction is called. -/
theorem assignsAt_emitted (lowered : callable.finalFrame naming = .ok final) :
    List.Forall₂ (callable.AssignsAt naming)
      (callable.body.zipIdx.filter fun entry => entry.1.emits) final.emitted.toList := by
  have spelled := mapM_eq_some.mp (statements?_eq_emitted lowered)
  rw [← List.forall₂_eq_eq_eq, List.forall₂_map_left_iff, List.forall₂_map_right_iff] at spelled
  exact spelled.imp fun _ _ => assignsAt_of_statement?

theorem exists_instr_of_emitted (lowered : callable.finalFrame naming = .ok final)
    {statement : Statement} (emitted : statement ∈ final.emitted.toList) :
    ∃ instr ∈ callable.body, ∃ position, instr.emits ∧
      callable.AssignsAt naming (instr, position) statement := by
  have listed := List.mem_map_of_mem emitted (f := some)
  rw [← mapM_eq_some.mp (statements?_eq_emitted lowered)] at listed
  obtain ⟨⟨instr, position⟩, placed, spelled⟩ := List.mem_map.mp listed
  obtain ⟨standing, emits⟩ := List.mem_filter.mp placed
  exact ⟨instr, List.fst_mem_of_mem_zipIdx standing, position, emits,
    assignsAt_of_statement? spelled⟩

/-- Where no operation has the variable of a constant for its result, all targets are names. -/
theorem KeepsConstants.exists_name (keeps : callable.KeepsConstants)
    (lowered : callable.finalFrame naming = .ok final) {statement : Statement}
    (emitted : statement ∈ final.emitted.toList) {target : Operand}
    (assigns : statement.target? = some target) : ∃ name, target = .name name := by
  obtain ⟨instr, listed, position, emits, assignsAt⟩ := exists_instr_of_emitted lowered emitted
  cases target with
  | name name => exact ⟨name, rfl⟩
  | literal value =>
      obtain ⟨result, result_eq⟩ := Option.isSome_iff_exists.mp
        (assignsAt.assigns_iff.mp (assigns ▸ rfl))
      obtain ⟨type, payload, place, latest, -⟩ :=
        (assignsAt.literal_iff result result_eq value).mp assigns
      have constant := (Instr.getElem?_of_latestIntroduction? latest).1
      have introduced := List.mem_of_mem_take (List.mem_of_getElem? constant)
      exact absurd result_eq
        (keeps result (List.mem_filterMap.mpr ⟨_, introduced, rfl⟩) instr listed emits)

end Callable

namespace Compiler

variable {compiler : Compiler} {callable : Callable} {code : String}

/-- Every statement of lowered code belongs to an instruction. It is an assignment exactly if the
instruction has a result, and it starts with what that result is called there. That is the literal
of a constant if the latest introduction of the result is one, and otherwise the name of the
receiver or of a slot. So no assignment to a literal is ever emitted unless some operation has the
variable of a constant for its result. -/
theorem assignments_have_targets (uncached : compiler.cache.get? callable.name = none)
    (accepted : (compiler.lower callable).1 = .ok code) :
    ∃ final, callable.finalFrame compiler.naming = .ok final ∧
      code = Script.function callable.name (callable.paramNames compiler.naming)
        (String.join (final.emitted.toList.map Statement.render)) ∧
      List.Forall₂ (callable.AssignsAt compiler.naming)
        (callable.body.zipIdx.filter fun entry => entry.1.emits) final.emitted.toList ∧
      ∀ statement ∈ final.emitted.toList, ∀ target, statement.target? = some target →
        (∃ source, statement.render = target.render ++ " = " ++ source) ∧
        (callable.KeepsConstants → ∃ name, target = .name name) := by
  obtain ⟨final, lowered, code_eq⟩ := exists_finalFrame_of_lower uncached accepted
  refine ⟨final, lowered, code_eq, Callable.assignsAt_emitted lowered, ?_⟩
  intro statement emitted target assigns
  exact ⟨Statement.exists_render_of_target? assigns,
    fun keeps => keeps.exists_name lowered emitted assigns⟩

/-- A callable whose operations have a parameter, the receiver and a declared variable for their
results, next to a constant. -/
def tallying : Callable where
  kind := .function
  name := "f"
  params := [.ofWord 0]
  body := [.const (.ofWord 1) .long "1", .declare (.ofWord 2), .assign (.ofWord 2) (.ofWord 1),
    .binary .add .receiver (.ofWord 2) (.ofWord 0), .call (.ofWord 0) "g" [.ofWord 1]]

/-- The code of that callable. -/
def tallyingCode : String :=
  "function f($var2) " ++
    Script.braced "\n$var4 = 1;\n$this = $var4 + $var2;\n$var2 = g(1);\n"

theorem tallying_has_targets :
    (({} : Compiler).lower tallying).1 = .ok tallyingCode ∧ tallying.KeepsConstants ∧
      ∃ final, tallying.finalFrame {} = .ok final ∧
        List.Forall₂ (tallying.AssignsAt {})
          (tallying.body.zipIdx.filter fun entry => entry.1.emits) final.emitted.toList ∧
        ∀ statement ∈ final.emitted.toList, ∀ target, statement.target? = some target →
          ∃ name, target = .name name := by
  have accepted : (({} : Compiler).lower tallying).1 = .ok tallyingCode := by decide +kernel
  have keeps : tallying.KeepsConstants := by
    rw [Callable.KeepsConstants]
    decide +kernel
  obtain ⟨final, lowered, -, assigned, targets⟩ := assignments_have_targets rfl accepted
  refine ⟨accepted, keeps, final, lowered, assigned, ?_⟩
  exact fun statement emitted target assigns => (targets statement emitted target assigns).2 keeps

/-- A callable that assigns to the variable of a constant. -/
def overwriting : Callable where
  kind := .function
  name := "f"
  params := []
  body := [.const (.ofWord 1) .long "1", .declare (.ofWord 2), .assign (.ofWord 1) (.ofWord 2)]

/-- An operation that has the variable of a constant for its result assigns to a literal, and the
callable is accepted. -/
theorem overwriting_assigns_to_literal :
    (({} : Compiler).lower overwriting).1 =
        .ok ("function f() " ++ Script.braced "\n1 = $var3;\n") ∧
      ∃ final, overwriting.finalFrame {} = .ok final ∧
        ∃ statement ∈ final.emitted.toList, ∃ value, statement.target? = some (.literal value) := by
  refine ⟨by decide +kernel, _, rfl, .assign (.literal (.int 1)) (.name "$var3"), ?_, .int 1, rfl⟩
  decide +kernel

end Compiler

end ScriptLowering
