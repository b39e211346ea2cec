import ScriptLowering.Proofs.Frame.Scope
import ScriptLowering.Proofs.Machine.Basic

/-!
# Lowered code behaves like the callable

The machine of statements follows the machine of instructions step for step. Matching
configurations are tied together by the scope at the end of the body: a variable with a name has
the value of that name, and a variable that stands for a literal has no other value than that of
the literal. Positions match by the number of statements in front of them.
-/

namespace ScriptLowering

universe u v

variable {ν : Type u} {ω : Type v} {interpretation : Interpretation ν ω}

namespace Callable

/-- The number of statements that the instructions in front of a position have. -/
def statementsBefore (callable : Callable) (position : Nat) : Nat :=
  (callable.body.take position).countP Instr.emits

variable {callable : Callable} {naming : Naming} {final : Frame Literal Statement}

theorem statementsBefore_succ {position : Nat} {instr : Instr}
    (standing : callable.body[position]? = some instr) :
    callable.statementsBefore (position + 1) =
      callable.statementsBefore position + if instr.emits then 1 else 0 := by
  rw [statementsBefore, List.take_add_one, standing, List.countP_append]
  simp [statementsBefore]

end Callable

theorem getElem?_filter_countP {α : Type} {keep : α → Bool} {list : List α} {index : Nat}
    {item : α} (standing : list[index]? = some item) (kept : keep item) :
    (list.filter keep)[(list.take index).countP keep]? = some item := by
  induction list generalizing index with
  | nil => simp at standing
  | cons head rest induction =>
      cases index with
      | zero =>
          obtain rfl : head = item := by simpa using standing
          simp [kept]
      | succ index =>
          have later := induction (by simpa using standing)
          cases keepsHead : keep head <;> simpa [keepsHead] using later

namespace Callable

variable {callable : Callable} {naming : Naming} {final : Frame Literal Statement}

/-- The statement of an instruction stands behind those of the instructions in front of it. -/
theorem IntroducesOnce.statement_at (once : callable.IntroducesOnce)
    (lowered : callable.finalFrame naming = .ok final) {position : Nat} {instr : Instr}
    (standing : callable.body[position]? = some instr) (emits : instr.emits) :
    ∃ statement,
      instr.statement? (callable.scope naming) (callable.labelName naming) = some statement ∧
        final.emitted.toList[callable.statementsBefore position]? = some statement := by
  have kept := getElem?_filter_countP standing emits
  have spelled := congrArg (·[callable.statementsBefore position]?) (once.statement?_scope lowered)
  rw [List.getElem?_map, statementsBefore, kept, List.getElem?_map, Option.map_some] at spelled
  exact (Option.map_eq_some_iff.mp spelled.symm).imp fun _ found => ⟨found.2.symm, found.1⟩

/-- The statements come to an end where the instructions do. -/
theorem IntroducesOnce.statement_at_end (once : callable.IntroducesOnce)
    (lowered : callable.finalFrame naming = .ok final) {position : Nat}
    (ended : callable.body[position]? = none) :
    final.emitted.toList[callable.statementsBefore position]? = none := by
  have lengths := congrArg List.length (once.statement?_scope lowered)
  rw [List.length_map, List.length_map, ← List.countP_eq_length_filter] at lengths
  rw [List.getElem?_eq_none_iff, statementsBefore,
    List.take_of_length_le (List.getElem?_eq_none_iff.mp ended), lengths]

end Callable

/-- Marks stand in the same order on both sides. -/
theorem idxOf?_label_eq {spell : Instr → Option Statement} {label : Label} {name : String}
    {body : List Instr} {statements : List Statement}
    (spelled : (body.filter Instr.emits).map spell = statements.map some)
    (marks : ∀ instr ∈ body, spell instr = some (.label name) ↔ instr = .label label) :
    statements.idxOf? (.label name) =
      (body.idxOf? (.label label)).map fun position =>
        (body.take position).countP Instr.emits := by
  induction body generalizing statements with
  | nil =>
      obtain rfl : statements = [] := by simpa using spelled.symm
      rfl
  | cons instr body induction =>
      have later (rest : List Statement)
          (spelled : (body.filter Instr.emits).map spell = rest.map some) :=
        induction spelled fun instr listed => marks instr (List.mem_cons_of_mem _ listed)
      have here := marks instr List.mem_cons_self
      rw [List.idxOf?_cons]
      -- Only an instruction with a statement shifts the places of the marks behind it.
      cases emits : instr.emits with
      | false =>
          have other : instr ≠ .label label := by rintro rfl; cases emits
          rw [List.filter_cons_of_neg (by simp [emits])] at spelled
          rw [later statements spelled, if_neg (by simpa using other), Option.map_map]
          simp [Function.comp_def, emits]
      | true =>
          rw [List.filter_cons_of_pos emits, List.map_cons] at spelled
          obtain ⟨statement, rest, rfl, head, tail⟩ := List.map_eq_cons_iff.mp spelled.symm
          rw [List.idxOf?_cons]
          by_cases mark : instr = .label label
          · have statement_eq : statement = .label name :=
              Option.some.inj (head.trans (here.mpr mark))
            simp [mark, statement_eq]
          · have other : statement ≠ .label name := by
              rintro rfl
              exact mark (here.mp head.symm)
            rw [if_neg (by simpa using other), if_neg (by simpa using mark),
              later rest tail.symm, Option.map_map, Option.map_map]
            simp [Function.comp_def, emits]

namespace Callable

variable {callable : Callable} {naming : Naming} {final : Frame Literal Statement}

theorem labelName_injOn {label other : Label} (referred : label ∈ Instr.references callable.body)
    (otherReferred : other ∈ Instr.references callable.body)
    (equal : callable.labelName naming label = callable.labelName naming other) :
    label = other := by
  have ranks := naming.labelName_injective equal
  exact Label.rank_injOn referred otherReferred (Nat.add_left_cancel ranks)

/-- A jump leads to the same mark on both sides. -/
theorem IntroducesOnce.destination_eq (once : callable.IntroducesOnce)
    (lowered : callable.finalFrame naming = .ok final) {label : Label}
    (referred : label ∈ Instr.references callable.body) :
    final.emitted.toList.idxOf? (.label (callable.labelName naming label)) =
      (callable.body.idxOf? (.label label)).map callable.statementsBefore := by
  apply idxOf?_label_eq (once.statement?_scope lowered)
  intro instr listed
  constructor
  · intro spelled
    cases instr with
    | label target =>
        have names := Statement.label.inj (Option.some.inj spelled)
        have targetReferred : target ∈ Instr.references callable.body :=
          List.mem_filterMap.mpr ⟨_, listed, rfl⟩
        rw [labelName_injOn targetReferred referred names]
    | ret value => cases value <;> simp [Instr.statement?, Option.bind_eq_some_iff] at spelled
    | _ => simp [Instr.statement?, Option.bind_eq_some_iff] at spelled
  · rintro rfl
    rfl

end Callable

/-- Values of variables and values of names agree under a scope: a variable with a name has the
value of that name, and one that stands for a literal has no other value than the literal's. -/
structure Agrees (interpretation : Interpretation ν ω) (scope : Variable → Option Operand)
    (values : Variable → Option ν) (store : String → Option ν) : Prop where
  name : ∀ {subject name}, scope subject = some (.name name) → values subject = store name
  literal : ∀ {subject value found}, scope subject = some (.literal value) →
    values subject = some found → found = interpretation.literal value

namespace Agrees

variable {scope : Variable → Option Operand} {values : Variable → Option ν}
  {store : String → Option ν}

/-- Storing in a variable and in its name keeps the agreement, because no other variable has that
name. -/
theorem update (agrees : Agrees interpretation scope values store)
    (injective : ∀ {subject other name}, scope subject = some (.name name) →
      scope other = some (.name name) → subject = other)
    {result : Variable} {name : String} (called : scope result = some (.name name))
    (value : Option ν) :
    Agrees interpretation scope (Function.update values result value)
      (Function.update store name value) where
  name := by
    intro subject other otherCalled
    by_cases same : subject = result
    · subst same
      obtain rfl : name = other := by simpa using called.symm.trans otherCalled
      simp
    · have different : other ≠ name := by
        rintro rfl
        exact same (injective otherCalled called)
      rw [Function.update_of_ne same, Function.update_of_ne different, agrees.name otherCalled]
  literal := by
    intro subject literal found stands
    have different : subject ≠ result := by
      rintro rfl
      simp [called] at stands
    rw [Function.update_of_ne different]
    exact agrees.literal stands

/-- Arguments may be passed to parameters and to their names. -/
theorem pass (agrees : Agrees interpretation scope values store)
    (injective : ∀ {subject other name}, scope subject = some (.name name) →
      scope other = some (.name name) → subject = other)
    {params : List Variable} {names : List String}
    (called : List.Forall₂ (fun param name => scope param = some (.name name)) params names)
    (arguments : List ν) :
    Agrees interpretation scope
      ((params.zip arguments).foldl
        (fun values passed => Function.update values passed.1 (some passed.2)) values)
      ((names.zip arguments).foldl
        (fun values passed => Function.update values passed.1 (some passed.2)) store) := by
  induction called generalizing arguments values store with
  | nil => exact agrees
  | cons head tail induction =>
      cases arguments with
      | nil => exact agrees
      | cons argument arguments =>
          exact induction (agrees.update injective head (some argument)) arguments

/-- A constant may be stored in the variable that stands for it. -/
theorem update_literal (agrees : Agrees interpretation scope values store) {result : Variable}
    {literal : Literal} (stands : scope result = some (.literal literal)) :
    Agrees interpretation scope
      (Function.update values result (some (interpretation.literal literal))) store where
  name := by
    intro subject name called
    have different : subject ≠ result := by
      rintro rfl
      simp [called] at stands
    rw [Function.update_of_ne different, agrees.name called]
  literal := by
    intro subject other found otherStands valued
    by_cases same : subject = result
    · subst same
      obtain rfl : literal = other := by simpa using stands.symm.trans otherStands
      simpa using valued.symm
    · rw [Function.update_of_ne same] at valued
      exact agrees.literal otherStands valued

/-- An operand has the value of its variable, unless it is a constant whose variable has no value
yet. -/
theorem value_eq (agrees : Agrees interpretation scope values store) {subject : Variable}
    {operand : Operand} (called : scope subject = some operand)
    (bound : ∀ literal, scope subject = some (.literal literal) → (values subject).isSome) :
    values subject = operand.value? interpretation store := by
  cases operand with
  | name text => exact agrees.name called
  | literal value =>
      obtain ⟨found, valued⟩ := Option.isSome_iff_exists.mp (bound value called)
      rw [valued, agrees.literal called valued]
      rfl

theorem mapM_value_eq (agrees : Agrees interpretation scope values store)
    {subjects : List Variable} {operands : List Operand}
    (called : subjects.mapM scope = some operands)
    (bound : ∀ subject ∈ subjects, ∀ literal, scope subject = some (.literal literal) →
      (values subject).isSome) :
    subjects.mapM values = operands.mapM (Operand.value? interpretation store) := by
  induction subjects generalizing operands with
  | nil =>
      obtain rfl : operands = [] := by simpa using called.symm
      rfl
  | cons subject rest induction =>
      rw [mapM_eq_some] at called
      obtain ⟨operand, others, rfl, head, tail⟩ := List.map_eq_cons_iff.mp called.symm
      rw [List.mapM_cons, List.mapM_cons,
        agrees.value_eq head.symm (bound subject List.mem_cons_self),
        induction (mapM_eq_some.mpr tail.symm) fun other listed =>
          bound other (List.mem_cons_of_mem _ listed)]

end Agrees

/-- Configurations of the two machines match: both have returned the same, or both are running at
matching positions with values that agree. -/
inductive Matches (interpretation : Interpretation ν ω) (scope : Variable → Option Operand)
    (place : Nat → Nat) : Config Variable ν ω → Config String ν ω → Prop
  | running {position : Nat} {values : Variable → Option ν} {store : String → Option ν} {world : ω}
      (agrees : Agrees interpretation scope values store) :
      Matches interpretation scope place (.running position values world)
        (.running (place position) store world)
  | returned {value : Option ν} {world : ω} :
      Matches interpretation scope place (.returned value world) (.returned value world)

section Execute

variable {scope : Variable → Option Operand} {place : Nat → Nat} {position : Nat}
  {values : Variable → Option ν} {store : String → Option ν} {world : ω}

theorem Matches.jump (agrees : Agrees interpretation scope values store)
    (destination : Option Nat) :
    Option.Rel (Matches interpretation scope place) (Config.jump destination values world)
      (Config.jump (destination.map place) store world) := by
  cases destination with
  | none => exact .none
  | some position => exact .some (.running agrees)

theorem Matches.store_result (agrees : Agrees interpretation scope values store)
    (injective : ∀ {subject other name}, scope subject = some (.name name) →
      scope other = some (.name name) → subject = other)
    (onwards : place (position + 1) = place position + 1) {result : Variable} {operand : Operand}
    (called : scope result = some operand) (named : ∃ name, scope result = some (.name name))
    (outcome : Option (ν × ω)) :
    Option.Rel (Matches interpretation scope place) (Config.store position values result outcome)
      (operand.store (place position) store outcome) := by
  obtain ⟨name, named⟩ := named
  obtain rfl : operand = .name name := Option.some.inj (called.symm.trans named)
  cases outcome with
  | none => exact .none
  | some outcome =>
      have matched : Matches interpretation scope place
          (.running (position + 1) (Function.update values result (some outcome.1)) outcome.2)
          (.running (place (position + 1)) (Function.update store name (some outcome.1))
            outcome.2) :=
        .running (agrees.update injective named (some outcome.1))
      rw [onwards] at matched
      exact .some matched

/-- An instruction and its statement have matching outcomes, or neither has one. -/
theorem Matches.execute (agrees : Agrees interpretation scope values store)
    (injective : ∀ {subject other name}, scope subject = some (.name name) →
      scope other = some (.name name) → subject = other)
    (onwards : place (position + 1) = place position + 1)
    {instr : Instr} {statement : Statement} {labelName : Label → String}
    (spelled : instr.statement? scope labelName = some statement)
    {destination : Label → Option Nat} {target : String → Option Nat}
    (named : ∀ result ∈ instr.result?, ∃ name, scope result = some (.name name))
    (leads : ∀ label ∈ instr.label?, target (labelName label) = (destination label).map place)
    (bound : ∀ subject ∈ instr.operands, ∀ literal, scope subject = some (.literal literal) →
      (values subject).isSome) :
    Option.Rel (Matches interpretation scope place)
      (instr.execute interpretation destination position values world)
      (Script.execute interpretation target (place position) store world statement) := by
  have behind : Matches interpretation scope place (.running (position + 1) values world)
      (.running (place position + 1) store world) := onwards ▸ .running agrees
  have value_eq {subject : Variable} {operand : Operand} (called : scope subject = some operand)
      (read : subject ∈ instr.operands) : values subject = operand.value? interpretation store :=
    agrees.value_eq called (bound subject read)
  cases instr with
  | assign result source =>
      simp only [Instr.statement?, bind, Option.bind_eq_some_iff] at spelled
      obtain ⟨_, resultCalled, operand, sourceCalled, ⟨⟩⟩ := spelled
      rw [Instr.execute, Script.execute, value_eq sourceCalled (by simp [Instr.operands])]
      exact Option.rel_bind fun value =>
        Matches.store_result agrees injective onwards resultCalled (named result rfl) _
  | fetch result object property =>
      simp only [Instr.statement?, bind, Option.bind_eq_some_iff] at spelled
      obtain ⟨_, resultCalled, operand, objectCalled, ⟨⟩⟩ := spelled
      rw [Instr.execute, Script.execute, value_eq objectCalled (by simp [Instr.operands])]
      exact Option.rel_bind fun value =>
        Matches.store_result agrees injective onwards resultCalled (named result rfl) _
  | unary op result operand =>
      simp only [Instr.statement?, bind, Option.bind_eq_some_iff] at spelled
      obtain ⟨_, resultCalled, _, operandCalled, ⟨⟩⟩ := spelled
      rw [Instr.execute, Script.execute, value_eq operandCalled (by simp [Instr.operands])]
      exact Option.rel_bind fun value =>
        Matches.store_result agrees injective onwards resultCalled (named result rfl) _
  | binary op result left right =>
      simp only [Instr.statement?, bind, Option.bind_eq_some_iff] at spelled
      obtain ⟨_, resultCalled, _, leftCalled, _, rightCalled, ⟨⟩⟩ := spelled
      rw [Instr.execute, Script.execute, value_eq leftCalled (by simp [Instr.operands]),
        value_eq rightCalled (by simp [Instr.operands])]
      exact Option.rel_bind fun first => Option.rel_bind fun second =>
        Matches.store_result agrees injective onwards resultCalled (named result rfl) _
  | call result callee arguments =>
      simp only [Instr.statement?, bind, Option.bind_eq_some_iff] at spelled
      obtain ⟨_, resultCalled, passed, argumentsCalled, ⟨⟩⟩ := spelled
      rw [Instr.execute, Script.execute, agrees.mapM_value_eq argumentsCalled bound]
      exact Option.rel_bind fun values =>
        Matches.store_result agrees injective onwards resultCalled (named result rfl) _
  | label marked =>
      cases spelled
      exact .some behind
  | jump goal =>
      cases spelled
      rw [Instr.execute, Script.execute, leads goal rfl]
      exact Matches.jump agrees _
  | jumpIfFalse condition goal =>
      simp only [Instr.statement?, bind, Option.bind_eq_some_iff] at spelled
      obtain ⟨_, conditionCalled, ⟨⟩⟩ := spelled
      rw [Instr.execute, Script.execute, value_eq conditionCalled (by simp [Instr.operands]),
        leads goal rfl]
      refine Option.rel_bind fun value => ?_
      cases interpretation.truthy value with
      | true => exact .some behind
      | false => exact Matches.jump agrees _
  | ret value =>
      cases value with
      | none =>
          cases spelled
          exact .some .returned
      | some result =>
          simp only [Instr.statement?, bind, Option.bind_eq_some_iff] at spelled
          obtain ⟨operand, resultCalled, ⟨⟩⟩ := spelled
          rw [Instr.execute, Script.execute, value_eq resultCalled (by simp [Instr.operands])]
          cases operand.value? interpretation store with
          | none => exact .none
          | some value => exact .some .returned
  | const _ _ _ | declare _ | free _ | recurse => cases spelled

/-- An instruction that has an outcome has found values for all that it reads. -/
theorem Instr.isSome_of_execute {instr : Instr} {destination : Label → Option Nat}
    {next : Config Variable ν ω}
    (executed : instr.execute interpretation destination position values world = some next)
    {subject : Variable} (read : subject ∈ instr.operands) : (values subject).isSome := by
  cases instr with
  | call result callee arguments =>
      obtain ⟨passed, found, -⟩ := Option.bind_eq_some_iff.mp executed
      have valued : values subject ∈ arguments.map values := List.mem_map_of_mem read
      rw [mapM_eq_some.mp found] at valued
      obtain ⟨value, -, value_eq⟩ := List.mem_map.mp valued
      simp [← value_eq]
  | binary op result left right =>
      obtain ⟨first, leftFound, executed⟩ := Option.bind_eq_some_iff.mp executed
      obtain ⟨second, rightFound, -⟩ := Option.bind_eq_some_iff.mp executed
      simp only [operands, List.mem_cons, List.not_mem_nil, or_false] at read
      rcases read with rfl | rfl
      · simp [leftFound]
      · simp [rightFound]
  | ret value =>
      obtain rfl : value = some subject := by simpa [operands] using read
      obtain ⟨found, valued, -⟩ := Option.map_eq_some_iff.mp executed
      simp [valued]
  | assign _ operand | fetch _ operand _ | unary _ _ operand | jumpIfFalse operand _ =>
      obtain rfl : subject = operand := by simpa [operands] using read
      obtain ⟨value, valued, -⟩ := Option.bind_eq_some_iff.mp executed
      simp [valued]
  | const _ _ _ | declare _ | label _ | jump _ | free _ | recurse => simp [operands] at read

end Execute

namespace Callable

/-- How many steps a script makes while a callable makes one: none for an instruction that has no
statement. -/
def weight (callable : Callable) : Config Variable ν ω → Nat
  | .running position _ _ => if callable.body[position]?.any Instr.emits then 1 else 0
  | .returned _ _ => 0

/-- The instruction that is about to be executed reads no constant that has not been stored. -/
def Settled (callable : Callable) : Config Variable ν ω → Prop
  | .running position values _ =>
      ∀ instr ∈ callable.body[position]?, ∀ subject ∈ instr.operands,
        subject ∈ callable.body.filterMap Instr.constant? → (values subject).isSome
  | .returned _ _ => True

/-- A configuration of the callable matches one of its statements. -/
abbrev Matches (interpretation : Interpretation ν ω) (callable : Callable) (naming : Naming) :
    Config Variable ν ω → Config String ν ω → Prop :=
  ScriptLowering.Matches interpretation (callable.scope naming) callable.statementsBefore

variable {callable : Callable} {naming : Naming} {final : Frame Literal Statement}

theorem weight_le_one (config : Config Variable ν ω) : callable.weight config ≤ 1 := by
  cases config with
  | running position values world =>
      rw [weight]
      split <;> decide
  | returned value world => exact Nat.zero_le 1

theorem mem_constants_of_scope {subject : Variable} {value : Literal}
    (stands : callable.scope naming subject = some (.literal value)) :
    subject ∈ callable.body.filterMap Instr.constant? := by
  obtain ⟨type, payload, constant⟩ := Naming.const_of_operand? stands
  exact List.mem_filterMap.mpr ⟨_, constant, rfl⟩

/-- The two programs start in matching configurations. -/
theorem IntroducesOnce.matches_entry (once : callable.IntroducesOnce)
    (apart : ∀ slot, naming.receiver ≠ naming.variableName slot)
    (receiver : Option ν) (arguments : List ν) (world : ω) :
    callable.Matches interpretation naming
      (.entry .receiver callable.params receiver arguments world)
      (.entry naming.receiver (callable.paramNames naming) receiver arguments world) := by
  have empty : Agrees interpretation (callable.scope naming) (fun _ => none) fun _ => none :=
    ⟨fun _ => rfl, nofun⟩
  have called := empty.update (Naming.operand?_name_injective apart) once.scope_receiver receiver
  exact .running
    (called.pass (Naming.operand?_name_injective apart) once.scope_params arguments)

/-- An instruction that has a statement is executed like it, unless it reads a constant that has
not been stored. -/
theorem IntroducesOnce.rel_step (once : callable.IntroducesOnce)
    (apart : ∀ slot, naming.receiver ≠ naming.variableName slot)
    (lowered : callable.finalFrame naming = .ok final) {position : Nat} {instr : Instr}
    (standing : callable.body[position]? = some instr) (emits : instr.emits)
    {values : Variable → Option ν} {store : String → Option ν} {world : ω}
    (agrees : Agrees interpretation (callable.scope naming) values store)
    (settled : callable.Settled (.running position values world)) :
    Option.Rel (callable.Matches interpretation naming)
      (callable.step interpretation (.running position values world))
      (Script.step interpretation final.emitted.toList
        (.running (callable.statementsBefore position) store world)) := by
  have listed : instr ∈ callable.body := List.mem_of_getElem? standing
  obtain ⟨statement, spelled, placed⟩ := once.statement_at lowered standing emits
  rw [step, standing, Script.step, placed]
  refine Matches.execute agrees (Naming.operand?_name_injective apart) ?_ spelled
    (fun result writes => once.scope_result lowered listed emits writes)
    (fun label refers => once.destination_eq lowered
      (List.mem_filterMap.mpr ⟨instr, listed, refers⟩))
    (fun subject read value stands =>
      settled instr standing subject read (mem_constants_of_scope stands))
  rw [statementsBefore_succ standing, if_pos emits]

/-- An instruction without a statement leaves the script where it is. -/
theorem IntroducesOnce.matches_silent (once : callable.IntroducesOnce)
    (lowered : callable.finalFrame naming = .ok final) {position : Nat} {instr : Instr}
    (standing : callable.body[position]? = some instr) (silent : instr.emits = false)
    {values : Variable → Option ν} {store : String → Option ν} {world : ω}
    (agrees : Agrees interpretation (callable.scope naming) values store) :
    ∃ next, callable.step interpretation (.running position values world) = some next ∧
      callable.Matches interpretation naming next
        (.running (callable.statementsBefore position) store world) := by
  have waits : callable.statementsBefore position = callable.statementsBefore (position + 1) := by
    rw [statementsBefore_succ standing, silent]
    rfl
  rw [step, standing, Option.bind_some, waits]
  cases instr with
  | const result type payload =>
      obtain ⟨value, decoded, stands⟩ := once.scope_const lowered (List.mem_of_getElem? standing)
      rw [Instr.execute, decoded]
      exact ⟨_, rfl, .running (agrees.update_literal stands)⟩
  | declare _ | free _ => exact ⟨_, rfl, .running agrees⟩
  | _ => cases silent

end Callable

/-- The machine of a list of statements follows the machine of a callable step for step: a step
of the callable is one step of the script, or none if its instruction has no statement. Where the
callable is stuck without having met a constant that is not stored, so is the script. -/
structure Callable.Simulated (interpretation : Interpretation ν ω) (callable : Callable)
    (naming : Naming) (statements : List Statement) : Prop where
  entry : ∀ receiver arguments world,
    callable.Matches interpretation naming
      (.entry .receiver callable.params receiver arguments world)
      (.entry naming.receiver (callable.paramNames naming) receiver arguments world)
  step : ∀ config script next, callable.Matches interpretation naming config script →
    callable.step interpretation config = some next →
    ∃ after, callable.Matches interpretation naming next after ∧
      Config.run (Script.step interpretation statements) (callable.weight config) script =
        some after
  stuck : ∀ config script, callable.Matches interpretation naming config script →
    callable.Settled config → callable.step interpretation config = none →
    Script.step interpretation statements script = none

namespace Callable

variable {callable : Callable} {naming : Naming} {final : Frame Literal Statement}

theorem IntroducesOnce.simulated (once : callable.IntroducesOnce)
    (apart : ∀ slot, naming.receiver ≠ naming.variableName slot)
    (lowered : callable.finalFrame naming = .ok final) (interpretation : Interpretation ν ω) :
    callable.Simulated interpretation naming final.emitted.toList where
  entry := once.matches_entry apart
  step := by
    rintro config script next matched stepped
    cases matched with
    | returned => cases stepped
    | @running position values store world agrees =>
        obtain ⟨instr, standing, executed⟩ := Option.bind_eq_some_iff.mp stepped
        cases emits : instr.emits with
        | false =>
            obtain ⟨found, found_eq, matched⟩ := once.matches_silent lowered standing emits agrees
            obtain rfl : found = next := Option.some.inj (found_eq.symm.trans stepped)
            refine ⟨_, matched, ?_⟩
            simp [weight, standing, emits, Config.run]
        | true =>
            -- The instruction has been executed, so it has found all values that it reads.
            have settled : callable.Settled (.running position values world) := by
              intro other otherStanding subject read _
              obtain rfl : instr = other := Option.some.inj (standing.symm.trans otherStanding)
              exact Instr.isSome_of_execute executed read
            have related := once.rel_step apart lowered standing emits agrees settled
            rw [stepped] at related
            obtain ⟨after, reached, matched⟩ := Option.exists_of_rel_some related
            refine ⟨after, matched, ?_⟩
            simp [weight, standing, emits, Config.run, reached]
  stuck := by
    rintro config script matched settled stopped
    cases matched with
    | returned => rfl
    | @running position values store world agrees =>
        cases standing : callable.body[position]? with
        | none => rw [Script.step, once.statement_at_end lowered standing, Option.bind_none]
        | some instr =>
            cases emits : instr.emits with
            | false =>
                have stepped : ∃ next, callable.step interpretation
                    (.running position values world) = some next ∧ _ :=
                  once.matches_silent lowered standing emits agrees
                obtain ⟨next, stepped, -⟩ := stepped
                cases stepped.symm.trans stopped
            | true =>
                have related := once.rel_step apart lowered standing emits agrees settled
                rw [stopped] at related
                exact Option.eq_none_of_rel related

/-- A run of the callable is followed by a run of the script that is no longer. -/
theorem Simulated.run {interpretation : Interpretation ν ω} {statements : List Statement}
    (simulated : callable.Simulated interpretation naming statements) {steps : Nat}
    {config next : Config Variable ν ω} {script : Config String ν ω}
    (matched : callable.Matches interpretation naming config script)
    (ran : Config.run (callable.step interpretation) steps config = some next) :
    ∃ count ≤ steps, ∃ after, callable.Matches interpretation naming next after ∧
      Config.run (Script.step interpretation statements) count script = some after := by
  induction steps generalizing config script with
  | zero =>
      obtain rfl : config = next := Option.some.inj ran
      exact ⟨0, le_rfl, script, matched, rfl⟩
  | succ steps induction =>
      obtain ⟨middle, stepped, ran⟩ := Option.bind_eq_some_iff.mp ran
      obtain ⟨between, matched, followed⟩ := simulated.step config script middle matched stepped
      obtain ⟨count, bounded, after, matched, reached⟩ := induction matched ran
      refine ⟨callable.weight config + count, ?_, after, matched, ?_⟩
      · have single := callable.weight_le_one config
        omega
      · rw [Config.run_add, followed, Option.bind_some, reached]

end Callable

namespace Compiler

variable {compiler : Compiler} {callable : Callable} {code : String}

/-- Lowering preserves behaviour. The code consists of statements whose machine follows the machine
of the callable step for step, so that every run of the callable is followed by a run of the code.
Matching configurations have the same world, and the same value if they have returned. -/
theorem lower_preserves_behaviour
    (apart : ∀ slot, compiler.naming.receiver ≠ compiler.naming.variableName slot)
    (once : callable.IntroducesOnce) (uncached : compiler.cache.get? callable.name = none)
    (accepted : (compiler.lower callable).1 = .ok code) :
    ∃ final, callable.finalFrame compiler.naming = .ok final ∧
      code = Script.function callable.name (callable.paramNames compiler.naming)
        (final.output Statement.render) ∧
      ∀ {ν : Type u} {ω : Type v} (interpretation : Interpretation ν ω),
        callable.Simulated interpretation compiler.naming final.emitted.toList ∧
        ∀ receiver arguments world steps config,
          Config.run (callable.step interpretation) steps
            (.entry .receiver callable.params receiver arguments world) = some config →
          ∃ count ≤ steps, ∃ script,
            callable.Matches interpretation compiler.naming config script ∧
            Config.run (Script.step interpretation final.emitted.toList) count
              (.entry compiler.naming.receiver (callable.paramNames compiler.naming) receiver
                arguments world) = some script := by
  obtain ⟨final, lowered, code_eq⟩ := exists_finalFrame_of_lower uncached accepted
  refine ⟨final, lowered, code_eq, fun interpretation => ?_⟩
  have simulated := once.simulated apart lowered interpretation
  exact ⟨simulated, fun receiver arguments world _ _ ran =>
    simulated.run (simulated.entry receiver arguments world) ran⟩

/-- A loop that counts down to zero. -/
def countdown : Callable where
  kind := .function
  name := "countdown"
  params := [.ofWord 0]
  body := [.declare (.ofWord 1), .const (.ofWord 2) .long "1", .label ⟨0⟩,
    .jumpIfFalse (.ofWord 0) ⟨4⟩, .binary .sub (.ofWord 1) (.ofWord 0) (.ofWord 2),
    .assign (.ofWord 0) (.ofWord 1), .free (.ofWord 1), .jump ⟨0⟩, .label ⟨4⟩,
    .ret (some (.ofWord 0))]

/-- The code of the loop. -/
def countdownCode : String :=
  "function countdown($var2) " ++ Script.braced
    ("\nlabel_1:\nif (!$var2) " ++ Script.braced " goto label_2; " ++
      "\n$var3 = $var2 - 1;\n$var2 = $var3;\ngoto label_1;\nlabel_2:\nreturn $var2;\n")

/-- Integers with subtraction. -/
def integers : Interpretation Int Unit where
  literal
    | .int value => value
    | _ => 0
  truthy value := value != 0
  fetch _ _ _ := none
  unary _ _ _ := none
  binary
    | .sub, left, right, world => some (left - right, world)
    | _, _, _, _ => none
  call _ _ _ := none

/-- Called with three, the loop returns zero after 24 steps, and its code after no more. -/
theorem countdown_preserves_behaviour :
    countdown.IntroducesOnce ∧
      (({} : Compiler).lower countdown).1 = .ok countdownCode ∧
      ∃ final, countdown.finalFrame {} = .ok final ∧
        ∃ count ≤ 24, Config.run (Script.step integers final.emitted.toList) count
          (.entry "$this" ["$var2"] none [3] ()) = some (.returned (some 0) ()) := by
  have apart (slot : Nat) : ({} : Naming).receiver ≠ ({} : Naming).variableName slot := by
    intro equal
    have second := congrArg (fun text : String => text.toList[1]?) equal
    simp [Naming.variableName] at second
  have once : countdown.IntroducesOnce := by constructor <;> decide
  have accepted : (({} : Compiler).lower countdown).1 = .ok countdownCode := by decide +kernel
  obtain ⟨final, lowered, -, follows⟩ := lower_preserves_behaviour apart once rfl accepted
  refine ⟨once, accepted, final, lowered, ?_⟩
  have returns : Config.run (countdown.step integers) 24
      (.entry .receiver countdown.params none [3] ()) = some (.returned (some 0) ()) := rfl
  obtain ⟨count, bounded, script, matched, reached⟩ :=
    (follows integers).2 none [3] () 24 _ returns
  cases matched
  exact ⟨count, bounded, reached⟩

end Compiler

end ScriptLowering
