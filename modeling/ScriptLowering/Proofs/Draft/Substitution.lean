import ScriptLowering.Draft.Basic
import Mathlib.Data.List.Forall2
import Mathlib.Data.List.Sort

/-!
# Reading one variable in place of another

A replacement in a draft reaches the variables that instructions read and nothing else. So it is
settled by lists of operands: instructions that are alike and have the same operands are the same.
From this follow the laws of replacement for whole drafts, which say what it changes, what it
counts, who reads what afterwards, and when it can be undone.
-/

namespace ScriptLowering

namespace Instr

/-- The instructions are of one kind and agree on everything but the variables that they read. -/
inductive Alike : Instr → Instr → Prop
  | const (result : Variable) (type : ConstType) (payload : String) :
      Alike (.const result type payload) (.const result type payload)
  | declare (result : Variable) : Alike (.declare result) (.declare result)
  | assign (result source other : Variable) : Alike (.assign result source) (.assign result other)
  | fetch (result object other : Variable) (property : String) :
      Alike (.fetch result object property) (.fetch result other property)
  | unary (op : UnaryOp) (result operand other : Variable) :
      Alike (.unary op result operand) (.unary op result other)
  | binary (op : BinaryOp) (result left right otherLeft otherRight : Variable) :
      Alike (.binary op result left right) (.binary op result otherLeft otherRight)
  | label (target : Label) : Alike (.label target) (.label target)
  | jump (target : Label) : Alike (.jump target) (.jump target)
  | jumpIfFalse (condition other : Variable) (target : Label) :
      Alike (.jumpIfFalse condition target) (.jumpIfFalse other target)
  | ret (value other : Option Variable) : Alike (.ret value) (.ret other)
  | call (result : Variable) (callee : String) (arguments others : List Variable) :
      Alike (.call result callee arguments) (.call result callee others)
  | free (subject : Variable) : Alike (.free subject) (.free subject)
  | recurse : Alike .recurse .recurse

namespace Alike

variable {first second third : Instr}

theorem trans (front : Alike first second) (back : Alike second third) : Alike first third := by
  cases front <;> cases back <;> constructor

theorem result?_eq (alike : Alike first second) : second.result? = first.result? := by
  cases alike <;> rfl

theorem label?_eq (alike : Alike first second) : second.label? = first.label? := by
  cases alike <;> rfl

/-- What two instructions that are alike read is all that can tell them apart. -/
theorem eq_of_operands (alike : Alike first second) (same : first.operands = second.operands) :
    first = second := by
  cases alike with
  | ret value other => cases value <;> cases other <;> simp_all [operands]
  | _ => simp_all [operands]

theorem eq_of_map_operands (alike : Alike first second) {convert : Variable → Variable}
    (mapped : second.operands = first.operands.map convert)
    (kept : ∀ operand ∈ first.operands, convert operand = operand) : second = first := by
  have same : first.operands = second.operands := by
    calc first.operands = first.operands.map id := (List.map_id _).symm
      _ = first.operands.map convert :=
        List.map_congr_left fun operand listed => (kept operand listed).symm
      _ = second.operands := mapped.symm
  exact (alike.eq_of_operands same).symm

end Alike

variable (old new : Variable) (instr : Instr)

/-- A replacement leaves everything alone that is not read. -/
theorem alike_replaceOperand : Alike instr (instr.replaceOperand old new) := by
  cases instr with
  | ret value => cases value <;> constructor
  | _ => constructor

@[simp]
theorem operands_replaceOperand :
    (instr.replaceOperand old new).operands =
      instr.operands.map fun operand => if operand = old then new else operand := by
  have snd_replace (subject : Variable) :
      (Variable.replace old new subject).2 = if subject = old then new else subject := by
    rw [Variable.replace]
    split <;> rfl
  cases instr with
  | ret value => cases value <;> simp [replaceOperand, substitute, operands, snd_replace]
  | _ => simp [replaceOperand, substitute, operands, snd_replace]

/-- An instruction is changed in some place exactly if it reads the variable. -/
@[simp]
theorem substitute_fst : (instr.substitute old new).1 = instr.reads old := by
  have fst_replace (subject : Variable) :
      (Variable.replace old new subject).1 = decide (old = subject) := by
    rw [Variable.replace]
    by_cases same : subject = old
    · simp [same]
    · simp [same, Ne.symm same]
  cases instr with
  | ret value => cases value <;> simp [substitute, reads, operands, fst_replace]
  | call result callee arguments =>
      simp [substitute, reads, operands, fst_replace, Function.comp_def, List.any_eq]
  | _ => simp [substitute, reads, operands, fst_replace]

variable {old new instr}

theorem reads_iff {subject : Variable} : instr.reads subject ↔ subject ∈ instr.operands := by
  rw [reads, List.contains_iff_mem]

/-- Behind a replacement, the new variable is read where either of the two has been, the old one is
not read, and any other is read where it has been. -/
theorem reads_replaceOperand {subject : Variable} :
    (instr.replaceOperand old new).reads subject ↔
      subject = new ∧ instr.reads old ∨ subject ≠ old ∧ instr.reads subject := by
  simp only [reads_iff, operands_replaceOperand, List.mem_map]
  constructor
  · rintro ⟨operand, listed, rfl⟩
    by_cases same : operand = old
    · exact .inl ⟨if_pos same, same ▸ listed⟩
    · rw [if_neg same]
      exact .inr ⟨same, listed⟩
  · rintro (⟨rfl, listed⟩ | ⟨other, listed⟩)
    · exact ⟨old, listed, if_pos rfl⟩
    · exact ⟨subject, listed, if_neg other⟩

theorem not_reads_replaceOperand (different : old ≠ new) :
    ¬ (instr.replaceOperand old new).reads old := by
  rw [reads_replaceOperand]
  rintro (⟨equal, -⟩ | ⟨unequal, -⟩)
  · exact different equal
  · exact unequal rfl

theorem replaceOperand_of_not_reads (unread : ¬ instr.reads old) :
    instr.replaceOperand old new = instr := by
  apply (alike_replaceOperand old new instr).eq_of_map_operands (operands_replaceOperand ..)
  intro operand listed
  have other : operand ≠ old := fun same => unread (reads_iff.mpr (same ▸ listed))
  rw [if_neg other]

theorem replaceOperand_eq_self_iff (different : old ≠ new) :
    instr.replaceOperand old new = instr ↔ ¬ instr.reads old := by
  constructor
  · intro same reads
    rw [← same] at reads
    exact not_reads_replaceOperand different reads
  · exact replaceOperand_of_not_reads

/-- A replacement can be taken back exactly if the new variable has not been read before: else its
own reads are taken for replaced ones. -/
theorem replaceOperand_back_iff (different : old ≠ new) :
    (instr.replaceOperand old new).replaceOperand new old = instr ↔ ¬ instr.reads new := by
  constructor
  · intro restored reads
    rw [← restored] at reads
    exact not_reads_replaceOperand different.symm reads
  · intro unread
    have alike := (alike_replaceOperand old new instr).trans (alike_replaceOperand new old _)
    apply alike.eq_of_map_operands
    · rw [operands_replaceOperand, operands_replaceOperand, List.map_map]
    · intro operand listed
      have other : operand ≠ new := fun same => unread (reads_iff.mpr (same ▸ listed))
      by_cases same : operand = old
      · simp [same]
      · simp [same, other]

end Instr

namespace Draft

variable (draft : Draft) (old new : Variable)

theorem replace_eq :
    draft.replace old new =
      (draft.instrs.toList.countP fun instr => instr.reads old,
        { draft with instrs := draft.instrs.map (Instr.replaceOperand old new) }) := by
  rw [replace]
  congr 1
  · rw [← Array.length_toList, Array.toList_filter, Array.toList_map,
      ← List.countP_eq_length_filter, List.countP_map]
    simp [Function.comp_def]
  · rw [Array.map_map]
    rfl

variable {draft old new} {subject : Variable} {place : Nat}

theorem mem_readersOf :
    place ∈ draft.readersOf subject ↔
      ∃ instr, draft.instrs[place]? = some instr ∧ instr.reads subject := by
  simp only [readersOf, List.mem_map, List.mem_filter, Prod.exists, exists_eq_right,
    List.mk_mem_zipIdx_iff_getElem?, Array.getElem?_toList]

theorem pairwise_readersOf (draft : Draft) (subject : Variable) :
    (draft.readersOf subject).Pairwise (· < ·) := by
  rw [readersOf, List.pairwise_map]
  apply List.Pairwise.filter
  rw [← List.pairwise_map (f := Prod.snd), List.zipIdx_map_snd]
  exact List.pairwise_lt_range'

@[simp]
theorem length_readersOf (draft : Draft) (subject : Variable) :
    (draft.readersOf subject).length =
      draft.instrs.toList.countP fun instr => instr.reads subject := by
  have instrs_eq : draft.instrs.toList = draft.instrs.toList.zipIdx.map Prod.fst :=
    (List.zipIdx_map_fst 0 _).symm
  rw [readersOf, List.length_map, ← List.countP_eq_length_filter]
  nth_rewrite 2 [instrs_eq]
  rw [List.countP_map]
  rfl

theorem mem_readersOf_replace :
    place ∈ (draft.replace old new).2.readersOf subject ↔
      subject = new ∧ place ∈ draft.readersOf old ∨
        subject ≠ old ∧ place ∈ draft.readersOf subject := by
  simp only [mem_readersOf, replace_eq, Array.getElem?_map, Option.map_eq_some_iff]
  cases draft.instrs[place]? with
  | none => simp
  | some instr => simp [Instr.reads_replaceOperand]

theorem readersOf_replace_old (different : old ≠ new) :
    (draft.replace old new).2.readersOf old = [] := by
  rw [List.eq_nil_iff_forall_not_mem]
  intro place
  rw [mem_readersOf_replace]
  simp [different]

theorem readersOf_replace_of_ne (not_old : subject ≠ old) (not_new : subject ≠ new) :
    (draft.replace old new).2.readersOf subject = draft.readersOf subject := by
  apply (pairwise_readersOf _ subject).eq_of_mem_iff (pairwise_readersOf _ subject)
  intro place
  rw [mem_readersOf_replace]
  simp [not_old, not_new]

/-- A replacement keeps every instruction in its place and of its kind. -/
theorem forall₂_replace (draft : Draft) (old new : Variable) :
    List.Forall₂ (fun before after => Instr.Alike before after ∧
        after.operands = before.operands.map fun operand => if operand = old then new else operand)
      draft.instrs.toList (draft.replace old new).2.instrs.toList := by
  rw [replace_eq, Array.toList_map, List.forall₂_map_right_iff, List.forall₂_same]
  intro instr _
  exact ⟨Instr.alike_replaceOperand old new instr, Instr.operands_replaceOperand old new instr⟩

theorem getElem?_replace_ne_iff (different : old ≠ new) :
    (draft.replace old new).2.instrs[place]? ≠ draft.instrs[place]? ↔
      place ∈ draft.readersOf old := by
  rw [mem_readersOf, replace_eq, Array.getElem?_map]
  cases draft.instrs[place]? with
  | none => simp
  | some instr => simp [Instr.replaceOperand_eq_self_iff different]

theorem map_eq_self_iff {instrs : Array Instr} {convert : Instr → Instr} :
    instrs.map convert = instrs ↔ ∀ instr ∈ instrs, convert instr = instr := by
  nth_rewrite 2 [← Array.map_id instrs]
  exact Array.map_inj_left

theorem readersOf_eq_nil :
    draft.readersOf subject = [] ↔ ∀ instr ∈ draft.instrs, ¬ instr.reads subject := by
  rw [← List.length_eq_zero_iff, length_readersOf, List.countP_eq_zero]
  simp only [Array.mem_toList_iff]

theorem replace_of_unread (unread : draft.readersOf old = []) :
    draft.replace old new = (0, draft) := by
  have instrs_eq : draft.instrs.map (Instr.replaceOperand old new) = draft.instrs :=
    map_eq_self_iff.mpr fun instr listed =>
      Instr.replaceOperand_of_not_reads (readersOf_eq_nil.mp unread instr listed)
  rw [replace_eq, ← length_readersOf, unread, instrs_eq]
  rfl

theorem replace_back_iff (different : old ≠ new) :
    ((draft.replace old new).2.replace new old).2 = draft ↔
      ∀ instr ∈ draft.instrs, ¬ instr.reads new := by
  obtain ⟨instrs, nextVariable, nextLabel⟩ := draft
  simp only [replace_eq, Array.map_map, mk.injEq, and_true]
  rw [map_eq_self_iff]
  simp only [Function.comp_apply, Instr.replaceOperand_back_iff different]

/-- A replacement counts the instructions that read the old variable, and puts the new one into
their operands and nowhere else. If the two variables differ, then it changes exactly those
instructions, nobody reads the old variable any more, the new one has the readers of both, and
everyone else keeps theirs. To replace again changes nothing, and to replace the other way round
restores the draft exactly if nobody in it has read the new variable. -/
theorem replace_is_substitution (draft : Draft) (old new : Variable) :
    (draft.replace old new).1 = (draft.readersOf old).length ∧
      List.Forall₂ (fun before after => Instr.Alike before after ∧
          after.result? = before.result? ∧ after.label? = before.label? ∧
          after.operands =
            before.operands.map fun operand => if operand = old then new else operand)
        draft.instrs.toList (draft.replace old new).2.instrs.toList ∧
      (draft.replace old new).2.nextVariable = draft.nextVariable ∧
      (draft.replace old new).2.nextLabel = draft.nextLabel ∧
      (old ≠ new →
        (∀ place : Nat, (draft.replace old new).2.instrs[place]? ≠ draft.instrs[place]? ↔
          place ∈ draft.readersOf old) ∧
        (draft.replace old new).2.readersOf old = [] ∧
        (((draft.replace old new).2.readersOf new).Pairwise (· < ·) ∧
          ∀ place, place ∈ (draft.replace old new).2.readersOf new ↔
            place ∈ draft.readersOf old ∨ place ∈ draft.readersOf new) ∧
        (∀ other, other ≠ old → other ≠ new →
          (draft.replace old new).2.readersOf other = draft.readersOf other) ∧
        (draft.replace old new).2.replace old new = (0, (draft.replace old new).2) ∧
        (((draft.replace old new).2.replace new old).2 = draft ↔
          ∀ instr ∈ draft.instrs, ¬ instr.reads new)) := by
  refine ⟨?_, ?_, by rw [replace_eq], by rw [replace_eq], ?_⟩
  · rw [replace_eq, length_readersOf]
  · refine (draft.forall₂_replace old new).imp ?_
    rintro before after ⟨alike, operands_eq⟩
    exact ⟨alike, alike.result?_eq, alike.label?_eq, operands_eq⟩
  · intro different
    refine ⟨?_, ?_, ⟨?_, ?_⟩, ?_, ?_, ?_⟩
    · exact fun place => getElem?_replace_ne_iff different
    · exact readersOf_replace_old different
    · exact pairwise_readersOf _ new
    · intro place
      rw [mem_readersOf_replace]
      simp [different.symm]
    · exact fun other not_old not_new => readersOf_replace_of_ne not_old not_new
    · exact replace_of_unread (readersOf_replace_old different)
    · exact replace_back_iff different

/-- A draft in which one variable is read twice by one instruction, written, freed and introduced,
and another is read beside it and elsewhere. -/
def medley : Draft where
  instrs := #[.binary .mul (.ofWord 2) (.ofWord 0) (.ofWord 1), .assign (.ofWord 1) (.ofWord 0),
    .call (.ofWord 0) "f" [.ofWord 0, .ofWord 1, .ofWord 0], .free (.ofWord 0),
    .const (.ofWord 0) .long "1", .jumpIfFalse (.ofWord 1) ⟨0⟩, .ret (some (.ofWord 2))]
  nextVariable := 3
  nextLabel := 1

theorem medley_is_substituted :
    Variable.ofWord 0 ≠ .ofWord 1 ∧
      (medley.replace (.ofWord 0) (.ofWord 1)).1 = 3 ∧
      (medley.replace (.ofWord 0) (.ofWord 1)).2.instrs[3]? = some (.free (.ofWord 0)) ∧
      (medley.replace (.ofWord 0) (.ofWord 1)).2.instrs[5]? = medley.instrs[5]? ∧
      5 ∈ (medley.replace (.ofWord 0) (.ofWord 1)).2.readersOf (.ofWord 1) ∧
      ((medley.replace (.ofWord 0) (.ofWord 1)).2.replace (.ofWord 1) (.ofWord 0)).2 ≠ medley := by
  have different : Variable.ofWord 0 ≠ .ofWord 1 := by decide
  obtain ⟨counted, -, -, -, laws⟩ := medley.replace_is_substitution (.ofWord 0) (.ofWord 1)
  obtain ⟨changed, -, ⟨-, read⟩, -, -, restored⟩ := laws different
  refine ⟨different, counted, ?_, ?_, (read 5).mpr (by decide), ?_⟩
  · exact not_not.mp (mt (changed 3).mp (by decide))
  · exact not_not.mp (mt (changed 5).mp (by decide))
  · intro same
    exact restored.mp same (.jumpIfFalse (.ofWord 1) ⟨0⟩) (by simp [medley]) (by decide)

end Draft

end ScriptLowering
