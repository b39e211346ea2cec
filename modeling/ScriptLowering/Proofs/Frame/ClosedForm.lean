import ScriptLowering.Compiler.Basic
import ScriptLowering.Proofs.Frame.Step
import Mathlib.Data.Finset.Card
import Mathlib.Data.Finset.Dedup

/-!
# The closed form of lowered code

Lowering keeps a scope, a slot counter and a table of labels while it walks through a body. This
file describes the same code without any state: what a variable is called at a position is a
function of the instructions in front of it, and what a label is called is a function of the
order in which labels are first referred to. The central theorem is that accepted callables are
lowered to their closed form.
-/

namespace ScriptLowering

namespace Instr

/-- The latest introduction of a variable among instructions, with its position. -/
def latestIntroduction? (instrs : List Instr) (subject : Variable) : Option (Instr × Nat) :=
  instrs.zipIdx.reverse.find? fun entry => entry.1.introduced? == some subject

/-- The labels that instructions mark or jump to, in order and with repetitions. -/
def references (instrs : List Instr) : List Label :=
  instrs.filterMap label?

end Instr

/-- The last place of a variable in a list of parameters. -/
def Variable.lastPlace? (subject : Variable) (params : List Variable) : Option Nat :=
  (params.zipIdx.reverse.find? fun entry => entry.1 == subject).map Prod.snd

/-- The number of distinct labels whose first reference precedes the first one of a label. -/
def Label.rank (label : Label) (references : List Label) : Nat :=
  (references.toFinset.filter fun other =>
    references.idxOf other < references.idxOf label).card

namespace Naming

variable (naming : Naming) (params : List Variable)

/-- What an introduction calls its variable, if it stands behind the given instructions. -/
def introducedOperand? (before : List Instr) : Instr → Option Operand
  | .const _ type payload => (Literal.ofConst type payload).toOption.map .literal
  | _ =>
      some (.name (naming.variableName
        (params.length + 2 + before.countP fun instr => instr.introduced?.isSome)))

/-- What a variable is called behind the given instructions: what its latest introduction says,
else the name of its last place among the parameters, else the name of the receiver. -/
def operand? (before : List Instr) (subject : Variable) : Option Operand :=
  match Instr.latestIntroduction? before subject with
  | some (instr, place) => naming.introducedOperand? params (before.take place) instr
  | none =>
      match subject.lastPlace? params with
      | some place => some (.name (naming.variableName (place + 2)))
      | none => if subject = .receiver then some (.name naming.receiver) else none

end Naming

namespace Callable

variable (callable : Callable) (naming : Naming)

/-- What a variable is called at a position of the body. -/
def operandAt? (position : Nat) : Variable → Option Operand :=
  naming.operand? callable.params (callable.body.take position)

/-- What a label is called. -/
def labelName (label : Label) : String :=
  naming.labelName (1 + label.rank (Instr.references callable.body))

/-- The names of the parameters. -/
def paramNames : List String :=
  (List.range callable.params.length).map fun place => naming.variableName (place + 2)

/-- The statements of all instructions that have a place among them, in order. -/
def statements? : Option (List Statement) :=
  (callable.body.zipIdx.filter fun entry => entry.1.emits).mapM fun entry =>
    entry.1.statement? (callable.operandAt? naming entry.2) (callable.labelName naming)

/-- The lowered code, without any state. -/
def closedForm? : Option String :=
  (callable.statements? naming).map fun statements =>
    Script.function callable.name (callable.paramNames naming)
      (String.join (statements.map Statement.render))

end Callable

@[simp]
theorem Instr.references_append (before : List Instr) (instr : Instr) :
    references (before ++ [instr]) = references before ++ instr.label?.toList := by
  rw [references, List.filterMap_append]
  cases label : instr.label? <;> simp [label, references]

namespace Label

variable {label : Label} {references : List Label}

/-- References behind the first one to a label have no say in its rank. -/
theorem rank_append_of_mem (referred : label ∈ references) (more : List Label) :
    label.rank (references ++ more) = label.rank references := by
  unfold rank
  congr 1
  ext other
  rw [Finset.mem_filter, Finset.mem_filter, List.mem_toFinset, List.mem_toFinset,
    List.mem_append, List.idxOf_append_of_mem referred]
  by_cases known : other ∈ references
  · simp [known, List.idxOf_append_of_mem known]
  · have behind : references.idxOf label < (references ++ more).idxOf other := by
      rw [List.idxOf_append_of_notMem known]
      exact Nat.lt_add_right _ (List.idxOf_lt_length_of_mem referred)
    simp only [known, false_and, iff_false, not_and, Nat.not_lt]
    exact fun _ => behind.le

/-- All labels that have been referred to precede a new one. -/
theorem rank_append_of_notMem (new : label ∉ references) :
    label.rank (references ++ [label]) = references.toFinset.card := by
  unfold rank
  congr 1
  ext other
  rw [Finset.mem_filter, List.mem_toFinset, List.mem_toFinset, List.mem_append,
    List.mem_singleton, List.idxOf_append_of_notMem new]
  constructor
  · rintro ⟨known | rfl, precedes⟩
    · exact known
    · simp [List.idxOf_append_of_notMem new] at precedes
  · intro known
    refine ⟨.inl known, ?_⟩
    rw [List.idxOf_append_of_mem known]
    exact Nat.lt_add_right _ (List.idxOf_lt_length_of_mem known)

/-- Two labels that are referred to have different ranks. -/
theorem rank_injOn {other : Label} (referred : label ∈ references)
    (otherReferred : other ∈ references) (equal : label.rank references = other.rank references) :
    label = other := by
  -- The label that comes first counts towards the rank of the other one, but not towards its own.
  have smaller {first second : Label} (firstReferred : first ∈ references)
      (precedes : references.idxOf first < references.idxOf second) :
      first.rank references < second.rank references := by
    apply Finset.card_lt_card
    rw [Finset.ssubset_iff_of_subset]
    · exact ⟨first, by simp [firstReferred, precedes], by simp⟩
    · intro earlier
      simp only [Finset.mem_filter]
      exact fun ⟨known, before⟩ => ⟨known, before.trans precedes⟩
  rcases Nat.lt_trichotomy (references.idxOf label) (references.idxOf other) with
    before | same | behind
  · exact absurd equal (smaller referred before).ne
  · exact (List.idxOf_inj referred).mp same
  · exact absurd equal.symm (smaller otherReferred behind).ne

end Label

/-- The table of a frame lists the labels that are referred to, each at its rank. -/
structure Label.Ranked (references table : List Label) : Prop where
  mem_iff : ∀ label, label ∈ table ↔ label ∈ references
  idxOf_eq : ∀ label ∈ table, table.idxOf label = label.rank references
  length_eq : table.length = references.toFinset.card

namespace Frame

variable {κ σ : Type} {frame : Frame κ σ} {references : List Label}

@[simp]
theorem mention_labels (frame : Frame κ σ) (label : Label) :
    (frame.mention label).2.labels =
      if label ∈ frame.labels then frame.labels else frame.labels ++ [label] := by
  unfold mention
  cases place : frame.labels.idxOf? label with
  | none => simp [List.idxOf?_eq_none_iff.mp place]
  | some index =>
      have known : label ∈ frame.labels := by
        by_contra absent
        rw [List.idxOf?_eq_none_iff.mpr absent] at place
        cases place
      simp [known]

theorem ranked_mention (ranked : Label.Ranked references frame.labels) (label : Label) :
    Label.Ranked (references ++ [label]) (frame.mention label).2.labels := by
  rw [mention_labels]
  split
  · rename_i known
    have referred : label ∈ references := (ranked.mem_iff label).mp known
    refine ⟨fun other => ?_, fun other otherKnown => ?_, ?_⟩
    · simp only [ranked.mem_iff, List.mem_append, List.mem_singleton]
      exact ⟨.inl, fun either => either.elim id (fun same => same ▸ referred)⟩
    · rw [ranked.idxOf_eq other otherKnown,
        Label.rank_append_of_mem ((ranked.mem_iff other).mp otherKnown)]
    · rw [ranked.length_eq, List.toFinset_append]
      simp [referred]
  · rename_i absent
    have new : label ∉ references := fun referred => absent ((ranked.mem_iff label).mpr referred)
    refine ⟨fun other => by simp [ranked.mem_iff], fun other otherKnown => ?_, ?_⟩
    · rcases List.mem_append.mp otherKnown with known | same
      · rw [List.idxOf_append_of_mem known, ranked.idxOf_eq other known,
          Label.rank_append_of_mem ((ranked.mem_iff other).mp known)]
      · obtain rfl := List.mem_singleton.mp same
        rw [List.idxOf_append_of_notMem absent, Label.rank_append_of_notMem new,
          ranked.length_eq]
        simp
    · rw [List.length_append, ranked.length_eq, List.toFinset_append]
      simp [new, Finset.card_insert_of_notMem]

end Frame

namespace Instr

@[simp]
theorem latestIntroduction?_append (before : List Instr) (instr : Instr) (subject : Variable) :
    latestIntroduction? (before ++ [instr]) subject =
      if instr.introduced? = some subject then some (instr, before.length)
      else latestIntroduction? before subject := by
  unfold latestIntroduction?
  rw [List.zipIdx_append, List.reverse_append]
  by_cases introduces : instr.introduced? = some subject <;> simp [introduces]

theorem getElem?_of_latestIntroduction? {before : List Instr} {subject : Variable} {instr : Instr}
    {place : Nat} (latest : latestIntroduction? before subject = some (instr, place)) :
    before[place]? = some instr ∧ instr.introduced? = some subject := by
  have listed := List.mem_of_find?_eq_some latest
  have introduces := List.find?_some latest
  rw [List.mem_reverse, List.mk_mem_zipIdx_iff_getElem?] at listed
  exact ⟨listed, by simpa using introduces⟩

end Instr

namespace Naming

variable (naming : Naming) (params : List Variable)

@[simp]
theorem operand?_append (before : List Instr) (instr : Instr) (subject : Variable) :
    naming.operand? params (before ++ [instr]) subject =
      if instr.introduced? = some subject then naming.introducedOperand? params before instr
      else naming.operand? params before subject := by
  unfold operand?
  rw [Instr.latestIntroduction?_append]
  by_cases introduces : instr.introduced? = some subject
  · simp [introduces]
  · rw [if_neg introduces, if_neg introduces]
    cases latest : Instr.latestIntroduction? before subject with
    | none => rfl
    | some entry =>
        obtain ⟨found, place⟩ := entry
        obtain ⟨standing, -⟩ := Instr.getElem?_of_latestIntroduction? latest
        obtain ⟨inside, -⟩ := List.getElem?_eq_some_iff.mp standing
        simp [List.take_append_of_le_length inside.le]

end Naming

namespace Frame

variable {κ σ : Type}

@[simp]
theorem binding?_introduce (frame : Frame κ σ) (subject other : Variable) (binding : Binding κ) :
    (frame.introduce subject binding).binding? other =
      if subject = other then some binding else frame.binding? other := by
  unfold binding? introduce
  rw [List.lookup_cons]
  by_cases same : subject = other
  · simp [same]
  · simp [same, beq_false_of_ne (Ne.symm same)]

/-- Declared parameters take the next slots, the last one being the first to be looked up. -/
theorem declareAll_eq (frame : Frame κ σ) (params : List Variable) :
    frame.declareAll params =
      ((List.range' frame.nextSlot params.length).map frame.naming.variableName,
        { frame with
          bindings :=
            ((params.zipIdx frame.nextSlot).reverse.map fun entry =>
              (entry.1, .name (frame.naming.variableName entry.2))) ++ frame.bindings
          nextSlot := frame.nextSlot + params.length }) := by
  induction params generalizing frame with
  | nil => rfl
  | cons subject rest induction =>
      simp only [declareAll, declare, introduce, induction]
      simp [List.range'_succ, Nat.add_comm, Nat.add_left_comm]

theorem lookup_map_name (naming : Naming) (entries : List (Variable × Nat)) (subject : Variable) :
    (entries.map fun entry => (entry.1, (.name (naming.variableName entry.2) : Binding κ))).lookup
        subject =
      (entries.find? fun entry => entry.1 == subject).map fun entry =>
        .name (naming.variableName entry.2) := by
  induction entries with
  | nil => rfl
  | cons entry rest induction =>
      rw [List.map_cons, List.lookup_cons, List.find?_cons, induction]
      by_cases same : entry.1 = subject
      · simp [same]
      · simp [beq_false_of_ne same, beq_false_of_ne (Ne.symm same)]

/-- Behind its parameters and before its instructions, a body calls variables as it should. -/
theorem binding?_declareAll_start (naming : Naming) (params : List Variable) :
    ((start naming : Frame Literal Statement).declareAll params).2.binding? =
      naming.operand? params [] := by
  funext subject
  rw [declareAll_eq]
  simp only [binding?, List.lookup_append, lookup_map_name, Naming.operand?, Variable.lastPlace?,
    start, Instr.latestIntroduction?, List.zipIdx_nil, List.reverse_nil, List.find?_nil]
  rw [List.zipIdx_eq_map_add]
  simp only [← List.map_reverse, List.find?_map, Function.comp_def]
  cases params.zipIdx.reverse.find? fun entry => entry.1 == subject with
  | none =>
      by_cases same : subject = .receiver
      · simp [same]
      · simp [same, List.lookup_cons, beq_false_of_ne same]
  | some entry => simp [Nat.add_comm]

end Frame

/-- The statements of a body, each of them missing where a variable of it has no name. -/
def Naming.spell (naming : Naming) (params : List Variable) (body : List Instr) :
    List (Option Statement) :=
  (body.zipIdx.filter fun entry => entry.1.emits).map fun entry =>
    entry.1.statement? (naming.operand? params (body.take entry.2)) fun label =>
      naming.labelName (1 + label.rank (Instr.references body))

/-- An instruction at the end of a body changes no statement in front of it. -/
theorem Naming.spell_append (naming : Naming) (params : List Variable) (before : List Instr)
    (instr : Instr) :
    naming.spell params (before ++ [instr]) = naming.spell params before ++
      if instr.emits then
        [instr.statement? (naming.operand? params before) fun label =>
          naming.labelName (1 + label.rank (Instr.references (before ++ [instr])))]
      else [] := by
  unfold spell
  rw [List.zipIdx_append, List.filter_append, List.map_append]
  congr 1
  · apply List.map_congr_left
    rintro ⟨earlier, place⟩ listed
    obtain ⟨standing, -⟩ := List.mem_filter.mp listed
    rw [List.mk_mem_zipIdx_iff_getElem?] at standing
    obtain ⟨inside, -⟩ := List.getElem?_eq_some_iff.mp standing
    apply Instr.statement?_congr
    · intro subject _
      rw [List.take_append_of_le_length inside.le]
    · intro label referred
      have known : label ∈ Instr.references before :=
        List.mem_filterMap.mpr ⟨earlier, List.mem_of_getElem? standing, referred⟩
      rw [Instr.references_append, Label.rank_append_of_mem known]
  · cases emits : instr.emits <;> simp [emits]

/-- A frame holds what the closed form says about the instructions that have been lowered. -/
structure Frame.Reflects (naming : Naming) (params : List Variable) (before : List Instr)
    (frame : Frame Literal Statement) : Prop where
  naming_eq : frame.naming = naming
  binding?_eq : frame.binding? = naming.operand? params before
  nextSlot_eq :
    frame.nextSlot = params.length + 2 + before.countP fun instr => instr.introduced?.isSome
  ranked : Label.Ranked (Instr.references before) frame.labels
  spell_eq : naming.spell params before = frame.emitted.toList.map some

namespace Frame

variable {naming : Naming} {params : List Variable} {before : List Instr} {instr : Instr}
  {frame next : Frame Literal Statement}

theorem reflects_start (naming : Naming) (params : List Variable) :
    Reflects naming params [] ((start naming).declareAll params).2 where
  naming_eq := by rw [declareAll_eq]; rfl
  binding?_eq := binding?_declareAll_start naming params
  nextSlot_eq := by rw [declareAll_eq]; simp [start, Nat.add_comm]
  ranked := by
    rw [declareAll_eq]
    exact ⟨by simp [start, Instr.references], by simp [start], by simp [start, Instr.references]⟩
  spell_eq := by rw [declareAll_eq]; rfl

/-- An introduction adds one binding and takes one slot. -/
theorem Reflects.introduce (reflects : Reflects naming params before frame) {subject : Variable}
    {operand : Operand} (introduces : instr.introduced? = some subject)
    (called : naming.introducedOperand? params before instr = some operand) :
    Reflects naming params (before ++ [instr]) (frame.introduce subject operand) := by
  have silent : instr.emits = false := by cases instr <;> simp_all [Instr.introduced?, Instr.emits]
  have unlabelled : instr.label? = none := by
    cases instr <;> simp_all [Instr.introduced?, Instr.label?]
  refine ⟨reflects.naming_eq, ?_, ?_, ?_, ?_⟩
  · funext other
    simp [introduces, called, reflects.binding?_eq]
  · simp [Frame.introduce, reflects.nextSlot_eq, introduces, Nat.add_assoc]
  · simpa [Frame.introduce, unlabelled] using reflects.ranked
  · simpa [Frame.introduce, Naming.spell_append, silent] using reflects.spell_eq

theorem ranked_note (ranked : Label.Ranked (Instr.references before) frame.labels)
    (instr : Instr) :
    Label.Ranked (Instr.references (before ++ [instr])) (frame.note instr).labels := by
  unfold note
  rw [Instr.references_append]
  cases instr.label? with
  | none => simpa using ranked
  | some target => simpa using ranked_mention ranked target

/-- A statement is emitted under the names that its variables and its label have by then. -/
theorem Reflects.emit (reflects : Reflects naming params before frame) {statement : Statement}
    (emits : instr.emits)
    (spelled : instr.statement? frame.binding? (frame.note instr).labelName = some statement) :
    Reflects naming params (before ++ [instr]) ((frame.note instr).emit statement) := by
  have silent : instr.introduced? = none := by
    cases instr <;> simp_all [Instr.introduced?, Instr.emits]
  have ranked := ranked_note reflects.ranked instr
  obtain ⟨naming_eq, binding?_eq, nextSlot_eq, -, spell_eq⟩ := reflects
  have noted : (frame.note instr).naming = frame.naming ∧
      (frame.note instr).bindings = frame.bindings ∧
      (frame.note instr).nextSlot = frame.nextSlot ∧
      (frame.note instr).emitted = frame.emitted := by
    unfold note mention
    split
    · split <;> simp
    · simp
  obtain ⟨sameNaming, sameBindings, sameSlot, sameEmitted⟩ := noted
  refine ⟨sameNaming.trans naming_eq, ?_, ?_, ranked, ?_⟩
  · funext subject
    simp [silent, ← binding?_eq, binding?, Frame.emit, sameBindings]
  · simp [Frame.emit, sameSlot, nextSlot_eq, silent]
  · rw [Naming.spell_append, spell_eq, if_pos emits, ← binding?_eq]
    have named : ∀ label ∈ instr.label?, naming.labelName
        (1 + label.rank (Instr.references (before ++ [instr]))) =
          (frame.note instr).labelName label := by
      intro label referred
      have known : label ∈ (frame.note instr).labels :=
        (ranked.mem_iff label).mpr
          (List.mem_filterMap.mpr ⟨instr, by simp, referred⟩)
      rw [labelName, sameNaming, naming_eq, ranked.idxOf_eq label known, Nat.add_comm]
    rw [Instr.statement?_congr (fun _ _ => rfl) named, spelled]
    simp [Frame.emit, sameEmitted]

theorem Reflects.lower (reflects : Reflects naming params before frame)
    (lowered : frame.lower instr = .ok next) :
    Reflects naming params (before ++ [instr]) next := by
  rcases lower_cases lowered with ⟨subject, rfl, rfl⟩ |
    ⟨result, type, payload, value, rfl, decoded, rfl⟩ | ⟨result, rfl, rfl⟩ |
    ⟨statement, emits, spelled, rfl⟩
  · obtain ⟨naming_eq, binding?_eq, nextSlot_eq, ranked, spell_eq⟩ := reflects
    refine ⟨naming_eq, ?_, ?_, ?_, ?_⟩
    · funext other
      simp [Instr.introduced?, binding?_eq]
    · simp [nextSlot_eq, Instr.introduced?]
    · simpa [Instr.label?] using ranked
    · simpa [Naming.spell_append, Instr.emits] using spell_eq
  · apply reflects.introduce rfl
    simp [Naming.introducedOperand?, decoded, Except.toOption]
  · apply reflects.introduce rfl
    rw [Naming.introducedOperand?, reflects.naming_eq, reflects.nextSlot_eq]
    rintro _ _ _ ⟨⟩
  · exact reflects.emit emits spelled

theorem reflects_lowerAll {body : List Instr} {final : Frame Literal Statement}
    (lowered : ((start naming).declareAll params).2.lowerAll (body.map .ok) = .ok final) :
    Reflects naming params body final :=
  lowerAll_invariant (Reflects naming params) (fun _ _ _ _ reflects head => reflects.lower head)
    (reflects_start naming params) lowered

end Frame

namespace Callable

/-- The frame at the end of the body. -/
def finalFrame (callable : Callable) (naming : Naming) :
    Except Failure (Frame Literal Statement) :=
  ((Frame.start naming).declareAll callable.params).2.lowerAll (callable.body.map .ok)

variable {callable : Callable} {naming : Naming} {code : String}

theorem lower_eq_ok_iff :
    callable.lower naming = .ok code ↔
      ∃ final, callable.finalFrame naming = .ok final ∧
        Script.function callable.name (callable.paramNames naming)
          (final.output Statement.render) = code := by
  have names : ((Frame.start naming : Frame Literal Statement).declareAll callable.params).1 =
      callable.paramNames naming := by
    rw [Frame.declareAll_eq, paramNames, List.range'_eq_map_range]
    simp [Frame.start, Nat.add_comm]
  rw [lower, Header.lower]
  simp only [Except.bind_eq_ok, names]
  exact exists_congr fun final => and_congr_right fun _ => by simp [pure, Except.pure]

/-- The statements that lowering emits are those of the closed form. -/
theorem statements?_eq_emitted {final : Frame Literal Statement}
    (lowered : callable.finalFrame naming = .ok final) :
    callable.statements? naming = some final.emitted.toList :=
  mapM_eq_some.mpr (Frame.reflects_lowerAll lowered).spell_eq

end Callable

namespace Compiler

variable {compiler : Compiler} {callable : Callable} {code : String}

@[simp]
theorem remember_fst (compiler : Compiler) (name : String) (outcome : Except Failure String) :
    (compiler.remember name outcome).1 = outcome := by
  cases outcome <;> rfl

theorem lower_of_uncached (uncached : compiler.cache.get? callable.name = none) :
    compiler.lower callable =
      compiler.remember callable.name (callable.lower compiler.naming) := by
  rw [lower, uncached]

/-- Code that is not in the cache comes from a frame that has been filled to the end. -/
theorem exists_finalFrame_of_lower (uncached : compiler.cache.get? callable.name = none)
    (accepted : (compiler.lower callable).1 = .ok code) :
    ∃ final, callable.finalFrame compiler.naming = .ok final ∧
      code = Script.function callable.name (callable.paramNames compiler.naming)
        (final.output Statement.render) := by
  rw [lower_of_uncached uncached, remember_fst, Callable.lower_eq_ok_iff] at accepted
  exact accepted.imp fun _ lowered => ⟨lowered.1, lowered.2.symm⟩

/-- One pass through a body, with its scope, its slots and its table of labels, writes the code
that the closed form describes without any of them. -/
theorem lower_eq_closedForm (uncached : compiler.cache.get? callable.name = none)
    (accepted : (compiler.lower callable).1 = .ok code) :
    callable.closedForm? compiler.naming = some code := by
  obtain ⟨final, lowered, rfl⟩ := exists_finalFrame_of_lower uncached accepted
  rw [Callable.closedForm?, Callable.statements?_eq_emitted lowered, Option.map_some]
  rfl

/-- Parameters that repeat, a parameter that is the receiver, a constant that is declared again and
labels that are not met in the order of their numbers. -/
def shadowing : Callable where
  kind := .function
  name := "f"
  params := [.ofWord 0, .ofWord 1, .ofWord 0, .receiver]
  body := [.declare (.ofWord 2), .const (.ofWord 3) .long "12", .assign (.ofWord 2) (.ofWord 3),
    .jump ⟨7⟩, .label ⟨3⟩, .declare (.ofWord 3), .assign (.ofWord 3) (.ofWord 0), .label ⟨7⟩,
    .jumpIfFalse (.ofWord 1) ⟨3⟩, .call (.ofWord 2) "g" [.ofWord 3, .receiver, .ofWord 2],
    .jump ⟨9⟩, .label ⟨7⟩, .ret (some (.ofWord 2))]

/-- The code of that callable. -/
def shadowingCode : String :=
  "function f($var2, $var3, $var4, $var5) " ++ Script.braced
    ("\n$var6 = 12;\ngoto label_1;\nlabel_2:\n$var8 = $var4;\nlabel_1:\n" ++
      "if (!$var3) " ++ Script.braced " goto label_2; " ++
      "\n$var6 = g($var8, $var5, $var6);\ngoto label_3;\nlabel_1:\nreturn $var6;\n")

theorem shadowing_eq_closedForm :
    (({} : Compiler).lower shadowing).1 = .ok shadowingCode ∧
      shadowing.closedForm? {} = some shadowingCode := by
  have accepted : (({} : Compiler).lower shadowing).1 = .ok shadowingCode := by decide +kernel
  have closed := lower_eq_closedForm rfl accepted
  exact ⟨accepted, closed⟩

end Compiler

end ScriptLowering
