import ScriptLowering.Proofs.Frame.Scope

/-!
# Names are never reused

Any calls may be made to a frame in any order: variables may be introduced again, under new names
or as constants, and so may the receiver. The invariant of such a run is `Frame.Traces`, which says
what introductions of variables and references to labels leave behind in a frame. The central
theorem is that every declaration returns a new name, that labels are numbered in the order of
their first mention, and that two variables share a name only if one of them is the receiver under
its own name and the naming gives this name to the slot of the other as well.
-/

namespace ScriptLowering

/-- The slot of the latest introduction of a variable. Each introduction takes one slot, and slots
are numbered from two. -/
def Variable.slot? (subject : Variable) (introduced : List Variable) : Option Nat :=
  (subject.lastPlace? introduced).map (· + 2)

namespace Variable

@[simp]
theorem slot?_concat (introduced : List Variable) (latest subject : Variable) :
    subject.slot? (introduced ++ [latest]) =
      if latest = subject then some (introduced.length + 2) else subject.slot? introduced := by
  unfold slot? lastPlace?
  rw [List.zipIdx_append, List.reverse_append]
  by_cases same : latest = subject <;> simp [same]

@[simp]
theorem slot?_eq_none_iff {subject : Variable} {introduced : List Variable} :
    subject.slot? introduced = none ↔ subject ∉ introduced := by
  induction introduced using List.reverseRecOn with
  | nil => simp [slot?, lastPlace?]
  | append_singleton introduced latest induction =>
      by_cases same : latest = subject
      · simp [same]
      · simp [same, induction, Ne.symm same]

/-- No two variables have one slot. -/
theorem slot?_injective {one other : Variable} {introduced : List Variable} {slot : Nat}
    (taken : one.slot? introduced = some slot) (otherTaken : other.slot? introduced = some slot) :
    one = other := by
  obtain ⟨place, last, rfl⟩ := Option.map_eq_some_iff.mp taken
  obtain ⟨otherPlace, otherLast, same⟩ := Option.map_eq_some_iff.mp otherTaken
  obtain rfl : otherPlace = place := by omega
  have standing := Naming.getElem?_of_lastPlace? last
  rw [Naming.getElem?_of_lastPlace? otherLast] at standing
  exact (Option.some.inj standing).symm

end Variable

namespace Naming

variable (naming : Naming) (introduced : List Variable)

/-- The name that a variable has behind introductions, unless the latest one inlines a constant. -/
def givenName? (subject : Variable) : Option String :=
  match subject.slot? introduced with
  | some slot => some (naming.variableName slot)
  | none => if subject = .receiver then some naming.receiver else none

/-- One variable is the receiver, still under its own name, and the slot of the other has this name
as well. -/
def Clash (one other : Variable) : Prop :=
  one = .receiver ∧ .receiver ∉ introduced ∧
    ∃ slot, other.slot? introduced = some slot ∧
      naming.receiver = naming.variablePrefix ++ toString slot

variable {naming introduced} {subject other : Variable} {name otherName : String}

@[simp]
theorem givenName?_concat (latest : Variable) :
    naming.givenName? (introduced ++ [latest]) subject =
      if latest = subject then some (naming.variableName (introduced.length + 2))
      else naming.givenName? introduced subject := by
  by_cases same : latest = subject <;> simp [givenName?, same]

@[simp]
theorem givenName?_eq_none_iff :
    naming.givenName? introduced subject = none ↔ subject ≠ .receiver ∧ subject ∉ introduced := by
  unfold givenName?
  rw [← Variable.slot?_eq_none_iff]
  cases subject.slot? introduced <;> simp

theorem givenName?_cases (given : naming.givenName? introduced subject = some name) :
    (∃ slot, subject.slot? introduced = some slot ∧ name = naming.variableName slot) ∨
      (subject = .receiver ∧ .receiver ∉ introduced ∧ name = naming.receiver) := by
  unfold givenName? at given
  split at given
  · rename_i slot taken
    exact .inl ⟨slot, taken, (Option.some.inj given).symm⟩
  · rename_i untaken
    split at given
    · rename_i receiver
      subst receiver
      exact .inr ⟨rfl, Variable.slot?_eq_none_iff.mp untaken, (Option.some.inj given).symm⟩
    · cases given

theorem Clash.givenName?_eq (clash : naming.Clash introduced subject other) :
    naming.givenName? introduced subject = naming.givenName? introduced other := by
  obtain ⟨rfl, own, slot, taken, same⟩ := clash
  rw [givenName?, Variable.slot?_eq_none_iff.mpr own, givenName?, taken]
  simp [same, variableName]

/-- Variables share a name only in a clash. -/
theorem givenName?_eq_iff (given : naming.givenName? introduced subject = some name)
    (otherGiven : naming.givenName? introduced other = some otherName) :
    name = otherName ↔
      subject = other ∨ naming.Clash introduced subject other ∨
        naming.Clash introduced other subject := by
  constructor
  · rintro rfl
    -- Slots with one name are one slot, so that only the receiver's own name can come up again.
    rcases givenName?_cases given with ⟨slot, taken, name_eq⟩ | ⟨rfl, own, name_eq⟩ <;>
      rcases givenName?_cases otherGiven with
        ⟨otherSlot, otherTaken, otherName_eq⟩ | ⟨rfl, otherOwn, otherName_eq⟩
    · obtain rfl := naming.variableName_injective (name_eq.symm.trans otherName_eq)
      exact .inl (Variable.slot?_injective taken otherTaken)
    · exact .inr (.inr ⟨rfl, otherOwn, slot, taken, otherName_eq.symm.trans name_eq⟩)
    · exact .inr (.inl ⟨rfl, own, otherSlot, otherTaken, name_eq.symm.trans otherName_eq⟩)
    · exact .inl rfl
  · intro shared
    apply Option.some.inj
    rw [← given, ← otherGiven]
    rcases shared with rfl | clash | clash
    · rfl
    · exact clash.givenName?_eq
    · exact clash.givenName?_eq.symm

end Naming

/-- A call to a frame with inlined constants of type `κ` and statements of type `σ`. -/
inductive FrameCall (κ σ : Type) where
  /-- Give a variable the name of the next slot. -/
  | declare (subject : Variable)
  /-- Inline a constant for a variable. -/
  | bindConst (subject : Variable) (value : κ)
  /-- Ask for the name of a label. -/
  | mention (label : Label)
  /-- Look up a variable. -/
  | resolve (subject : Variable)
  /-- Emit a statement. -/
  | emit (statement : σ)

variable {κ σ α : Type}

namespace FrameCall

/-- The variable that a call introduces. -/
def introduced? : FrameCall κ σ → Option Variable
  | .declare subject | .bindConst subject _ => some subject
  | .mention _ | .resolve _ | .emit _ => none

/-- The label that a call refers to. -/
def label? : FrameCall κ σ → Option Label
  | .mention label => some label
  | .declare _ | .bindConst _ _ | .resolve _ | .emit _ => none

/-- The variables that calls introduce, in order and with repetitions. -/
def introductions (calls : List (FrameCall κ σ)) : List Variable :=
  calls.filterMap introduced?

/-- The labels that calls refer to, in order and with repetitions. -/
def references (calls : List (FrameCall κ σ)) : List Label :=
  calls.filterMap label?

/-- The name that a declaration returns. -/
def declaredName? (frame : Frame κ σ) : FrameCall κ σ → Option String
  | .declare subject => some (frame.declare subject).1
  | .bindConst _ _ | .mention _ | .resolve _ | .emit _ => none

/-- The label of a mention with the name that is returned for it. -/
def mentionedName? (frame : Frame κ σ) : FrameCall κ σ → Option (Label × String)
  | .mention label => some (label, (frame.mention label).1)
  | .declare _ | .bindConst _ _ | .resolve _ | .emit _ => none

@[simp]
theorem introductions_concat (calls : List (FrameCall κ σ)) (call : FrameCall κ σ) :
    introductions (calls ++ [call]) = introductions calls ++ call.introduced?.toList := by
  rw [introductions, List.filterMap_append]
  rfl

@[simp]
theorem references_concat (calls : List (FrameCall κ σ)) (call : FrameCall κ σ) :
    references (calls ++ [call]) = references calls ++ call.label?.toList := by
  rw [references, List.filterMap_append]
  rfl

end FrameCall

namespace Frame

/-- The frame behind a call. A lookup leaves it as it is. -/
def after (frame : Frame κ σ) : FrameCall κ σ → Frame κ σ
  | .declare subject => (frame.declare subject).2
  | .bindConst subject value => frame.bindConst subject value
  | .mention label => (frame.mention label).2
  | .resolve _ => frame
  | .emit statement => frame.emit statement

/-- The frame behind calls. -/
def reach (frame : Frame κ σ) (calls : List (FrameCall κ σ)) : Frame κ σ :=
  calls.foldl after frame

/-- What is seen of calls, each of them being made in the frame behind those in front of it. -/
def observe (see : Frame κ σ → FrameCall κ σ → Option α) (frame : Frame κ σ) :
    List (FrameCall κ σ) → List α
  | [] => []
  | call :: rest => (see frame call).toList ++ (frame.after call).observe see rest

/-- The names that the declarations among calls return, in order. -/
def declaredNames (frame : Frame κ σ) (calls : List (FrameCall κ σ)) : List String :=
  frame.observe FrameCall.declaredName? calls

/-- The labels that calls mention, in order, each with the name that is returned for it. -/
def mentionedNames (frame : Frame κ σ) (calls : List (FrameCall κ σ)) : List (Label × String) :=
  frame.observe FrameCall.mentionedName? calls

@[simp]
theorem reach_concat (frame : Frame κ σ) (calls : List (FrameCall κ σ)) (call : FrameCall κ σ) :
    frame.reach (calls ++ [call]) = (frame.reach calls).after call := by
  rw [reach, List.foldl_append]
  rfl

@[simp]
theorem observe_concat (see : Frame κ σ → FrameCall κ σ → Option α) (frame : Frame κ σ)
    (calls : List (FrameCall κ σ)) (call : FrameCall κ σ) :
    frame.observe see (calls ++ [call]) =
      frame.observe see calls ++ (see (frame.reach calls) call).toList := by
  induction calls generalizing frame with
  | nil => simp [observe, reach]
  | cons first rest induction =>
      rw [List.cons_append, observe, observe, induction, List.append_assoc]
      rfl

/-- A frame holds what introductions and references leave behind: the next slot, a table of labels,
and a name or a constant for every variable that has been introduced and for the receiver. -/
structure Traces (naming : Naming) (introduced : List Variable) (referred : List Label)
    (frame : Frame κ σ) : Prop where
  naming_eq : frame.naming = naming
  nextSlot_eq : frame.nextSlot = introduced.length + 2
  ranked : Label.Ranked referred frame.labels
  unbound_iff : ∀ subject,
    frame.binding? subject = none ↔ naming.givenName? introduced subject = none
  named : ∀ subject name, frame.binding? subject = some (.name name) →
    naming.givenName? introduced subject = some name

variable {naming : Naming} {introduced : List Variable} {referred : List Label}
  {frame : Frame κ σ} {calls : List (FrameCall κ σ)}

theorem traces_start (naming : Naming) : Traces naming [] [] (start naming : Frame κ σ) := by
  have binding?_eq (subject : Variable) : (start naming : Frame κ σ).binding? subject =
      (naming.givenName? [] subject).map .name := by
    by_cases receiver : subject = .receiver
    · simp [receiver, binding?, start, Naming.givenName?, Variable.slot?, Variable.lastPlace?]
    · simp [receiver, binding?, start, Naming.givenName?, Variable.slot?, Variable.lastPlace?,
        List.lookup_cons, beq_false_of_ne receiver]
  refine ⟨rfl, rfl, ⟨by simp [start], by simp [start], by simp [start]⟩, ?_, ?_⟩
  · intro subject
    rw [binding?_eq, Option.map_eq_none_iff]
  · intro subject name called
    rw [binding?_eq] at called
    obtain ⟨given, given_eq, same⟩ := Option.map_eq_some_iff.mp called
    rw [given_eq, Binding.name.inj same]

/-- An introduction takes the next slot, and if it gives a name, then the name of this slot. -/
theorem Traces.introduce (traces : Traces naming introduced referred frame) (latest : Variable)
    {binding : Binding κ}
    (slotted : ∀ name, binding = .name name → name = naming.variableName frame.nextSlot) :
    Traces naming (introduced ++ [latest]) referred (frame.introduce latest binding) := by
  refine ⟨traces.naming_eq, ?_, traces.ranked, ?_, ?_⟩
  · simp [Frame.introduce, traces.nextSlot_eq]
  · intro subject
    by_cases same : latest = subject
    · simp [same]
    · simp [same, traces.unbound_iff]
  · intro subject name
    by_cases same : latest = subject
    · simp only [binding?_introduce, Naming.givenName?_concat, if_pos same, Option.some.injEq]
      intro called
      rw [slotted name called, traces.nextSlot_eq]
    · simpa [same] using traces.named subject name

theorem Traces.declare_fst (traces : Traces naming introduced referred frame)
    (subject : Variable) :
    (frame.declare subject).1 = naming.variableName (introduced.length + 2) := by
  rw [declare, traces.naming_eq, traces.nextSlot_eq]

/-- A reference changes nothing but the table of labels. -/
theorem Traces.mention (traces : Traces naming introduced referred frame) (label : Label) :
    Traces naming introduced (referred ++ [label]) (frame.mention label).2 := by
  have ranked := ranked_mention traces.ranked label
  obtain ⟨naming_eq, nextSlot_eq, -, unbound_iff, named⟩ := traces
  have same : (frame.mention label).2 =
      { frame with labels := (frame.mention label).2.labels } := by
    unfold Frame.mention
    split <;> rfl
  rw [same] at ranked ⊢
  exact ⟨naming_eq, nextSlot_eq, ranked, unbound_iff, named⟩

theorem Traces.mention_fst (traces : Traces naming introduced referred frame) (label : Label) :
    (frame.mention label).1 = naming.labelName (1 + label.rank (referred ++ [label])) := by
  obtain ⟨naming_eq, -, ranked, -, -⟩ := traces.mention label
  have known : label ∈ (frame.mention label).2.labels := (ranked.mem_iff label).mpr (by simp)
  rw [mention_eq, labelName, naming_eq, ranked.idxOf_eq label known, Nat.add_comm]

theorem Traces.after
    (traces : Traces naming (FrameCall.introductions calls) (FrameCall.references calls) frame)
    (call : FrameCall κ σ) :
    Traces naming (FrameCall.introductions (calls ++ [call]))
      (FrameCall.references (calls ++ [call])) (frame.after call) := by
  rw [FrameCall.introductions_concat, FrameCall.references_concat]
  cases call with
  | declare subject =>
      rw [FrameCall.label?, Option.toList_none, List.append_nil]
      apply traces.introduce subject
      intro name name_eq
      rw [← Binding.name.inj name_eq, traces.naming_eq]
  | bindConst subject value =>
      rw [FrameCall.label?, Option.toList_none, List.append_nil]
      apply traces.introduce subject
      intro name literal
      cases literal
  | mention label =>
      rw [FrameCall.introduced?, Option.toList_none, List.append_nil]
      exact traces.mention label
  | resolve _ | emit _ =>
      rw [FrameCall.introduced?, FrameCall.label?, Option.toList_none, Option.toList_none,
        List.append_nil, List.append_nil]
      obtain ⟨naming_eq, nextSlot_eq, ranked, unbound_iff, named⟩ := traces
      exact ⟨naming_eq, nextSlot_eq, ranked, unbound_iff, named⟩

/-- Whatever calls are made to a new frame, it holds what they leave behind. -/
theorem traces_reach (naming : Naming) (calls : List (FrameCall κ σ)) :
    Traces naming (FrameCall.introductions calls) (FrameCall.references calls)
      ((start naming).reach calls) := by
  induction calls using List.reverseRecOn with
  | nil => exact traces_start naming
  | append_singleton calls call induction =>
      rw [reach_concat]
      exact induction.after call

/-- A declaration returns the name of a slot below the next one. -/
theorem slot_of_mem_declaredNames {name : String}
    (returned : name ∈ (start naming).declaredNames calls) :
    ∃ slot, slot < (FrameCall.introductions calls).length + 2 ∧
      name = naming.variableName slot := by
  induction calls using List.reverseRecOn with
  | nil => cases returned
  | append_singleton calls call induction =>
      rw [declaredNames, observe_concat, List.mem_append] at returned
      rw [FrameCall.introductions_concat, List.length_append]
      rcases returned with earlier | last
      · obtain ⟨slot, below, name_eq⟩ := induction earlier
        exact ⟨slot, by omega, name_eq⟩
      · cases call with
        | declare subject =>
            have name_eq := (traces_reach naming calls).declare_fst subject
            exact ⟨_, by simp [FrameCall.introduced?], (List.mem_singleton.mp last).trans name_eq⟩
        | bindConst _ _ | mention _ | resolve _ | emit _ => cases last

theorem nodup_declaredNames (naming : Naming) (calls : List (FrameCall κ σ)) :
    ((start naming).declaredNames calls).Nodup := by
  induction calls using List.reverseRecOn with
  | nil => exact List.nodup_nil
  | append_singleton calls call induction =>
      rw [declaredNames, observe_concat]
      cases call with
      | declare subject =>
          rw [FrameCall.declaredName?, Option.toList_some, ← List.concat_eq_append,
            List.nodup_concat]
          refine ⟨fun returned => ?_, induction⟩
          -- All names so far are those of slots below the one that is taken now.
          obtain ⟨slot, below, name_eq⟩ := slot_of_mem_declaredNames returned
          rw [(traces_reach naming calls).declare_fst] at name_eq
          have := naming.variableName_injective name_eq
          omega
      | bindConst _ _ | mention _ | resolve _ | emit _ =>
          rw [FrameCall.declaredName?, Option.toList_none, List.append_nil]
          exact induction

/-- A mention returns the name with the number of its label in the order of first mentions. -/
theorem name_of_mem_mentionedNames {label : Label} {name : String}
    (returned : (label, name) ∈ (start naming).mentionedNames calls) :
    label ∈ FrameCall.references calls ∧
      name = naming.labelName (1 + label.rank (FrameCall.references calls)) := by
  induction calls using List.reverseRecOn with
  | nil => cases returned
  | append_singleton calls call induction =>
      rw [mentionedNames, observe_concat, List.mem_append] at returned
      rw [FrameCall.references_concat]
      rcases returned with earlier | last
      · obtain ⟨referred, name_eq⟩ := induction earlier
        exact ⟨List.mem_append_left _ referred, by rw [Label.rank_append_of_mem referred, name_eq]⟩
      · cases call with
        | mention mentioned =>
            obtain ⟨rfl, rfl⟩ := Prod.mk.inj (List.mem_singleton.mp last)
            exact ⟨by simp [FrameCall.label?], (traces_reach naming calls).mention_fst label⟩
        | declare _ | bindConst _ _ | resolve _ | emit _ => cases last

theorem exists_resolve_eq_error_iff {subject : Variable} :
    (∃ failure, frame.resolve subject = .error failure) ↔ frame.binding? subject = none := by
  unfold resolve
  cases frame.binding? subject <;> simp

/-- Names are never reused, whatever calls are made to a new frame. Declarations return different
names. Mentions return one name for one label and different names for different labels, the number
of a label being its place in the order of first mentions. Behind the calls, different variables
with names have different names, unless the receiver still has its own name and the slot of the
other variable has it too. A lookup fails exactly for variables other than the receiver that have
not been introduced. -/
theorem names_are_never_reused (naming : Naming) (calls : List (FrameCall κ σ)) :
    ((start naming).declaredNames calls).Nodup ∧
      (∀ one ∈ (start naming).mentionedNames calls, ∀ other ∈ (start naming).mentionedNames calls,
        one.2 = other.2 ↔ one.1 = other.1) ∧
      (∀ mentioned ∈ (start naming).mentionedNames calls,
        mentioned.2 = naming.labelPrefix ++
          toString (1 + mentioned.1.rank (FrameCall.references calls))) ∧
      (∀ one other oneName otherName,
        ((start naming).reach calls).binding? one = some (.name oneName) →
        ((start naming).reach calls).binding? other = some (.name otherName) →
        (oneName = otherName ↔
          one = other ∨ naming.Clash (FrameCall.introductions calls) one other ∨
            naming.Clash (FrameCall.introductions calls) other one)) ∧
      ∀ subject,
        (∃ failure, ((start naming).reach calls).resolve subject = .error failure) ↔
          subject ≠ .receiver ∧ subject ∉ FrameCall.introductions calls := by
  have traces := traces_reach naming calls
  refine ⟨nodup_declaredNames naming calls, ?_, ?_, ?_, ?_⟩
  · intro one oneReturned other otherReturned
    obtain ⟨oneReferred, oneName⟩ := name_of_mem_mentionedNames oneReturned
    obtain ⟨otherReferred, otherName⟩ := name_of_mem_mentionedNames otherReturned
    rw [oneName, otherName]
    constructor
    · intro same
      have ranks := Nat.add_left_cancel (naming.labelName_injective same)
      exact Label.rank_injOn oneReferred otherReferred ranks
    · intro same
      rw [same]
  · intro mentioned returned
    exact (name_of_mem_mentionedNames returned).2
  · intro one other oneName otherName called otherCalled
    exact Naming.givenName?_eq_iff (traces.named one oneName called)
      (traces.named other otherName otherCalled)
  · intro subject
    rw [exists_resolve_eq_error_iff, traces.unbound_iff, Naming.givenName?_eq_none_iff]

/-- A naming that calls the receiver like the fourth slot. -/
def posing : Naming := { receiver := "$var4" }

/-- Calls that declare one variable twice, with a constant in between, and mention a label again. -/
def redeclaring : List (FrameCall String String) :=
  [.declare (.ofWord 1), .mention ⟨7⟩, .bindConst (.ofWord 2) "42", .declare (.ofWord 1),
    .mention ⟨3⟩, .resolve (.ofWord 9), .emit "return;\n", .mention ⟨7⟩]

/-- Even here only the receiver shares its name, and only with the latest name of the variable. -/
theorem redeclaring_reuses_no_name :
    (start posing).declaredNames redeclaring = ["$var2", "$var4"] ∧
      ((start posing).declaredNames redeclaring).Nodup ∧
      (start posing).mentionedNames redeclaring =
        [(⟨7⟩, "label_1"), (⟨3⟩, "label_2"), (⟨7⟩, "label_1")] ∧
      ("label_1" = "label_2" ↔ (⟨7⟩ : Label) = ⟨3⟩) ∧
      "label_2" =
        posing.labelPrefix ++ toString (1 + Label.rank ⟨3⟩ (FrameCall.references redeclaring)) ∧
      ((start posing).reach redeclaring).binding? .receiver = some (.name "$var4") ∧
      ((start posing).reach redeclaring).binding? (.ofWord 1) = some (.name "$var4") ∧
      ("$var4" = "$var4" ↔ .receiver = Variable.ofWord 1 ∨
        posing.Clash (FrameCall.introductions redeclaring) .receiver (.ofWord 1) ∨
        posing.Clash (FrameCall.introductions redeclaring) (.ofWord 1) .receiver) ∧
      ((∃ failure, ((start posing).reach redeclaring).resolve (.ofWord 9) = .error failure) ↔
        Variable.ofWord 9 ≠ .receiver ∧
          Variable.ofWord 9 ∉ FrameCall.introductions redeclaring) := by
  obtain ⟨nodup, mentions, numbers, shared, lookups⟩ := names_are_never_reused posing redeclaring
  have receiver : ((start posing).reach redeclaring).binding? .receiver = some (.name "$var4") := by
    decide +kernel
  have declared :
      ((start posing).reach redeclaring).binding? (.ofWord 1) = some (.name "$var4") := by
    decide +kernel
  exact ⟨by decide +kernel, nodup, by decide +kernel,
    mentions (⟨7⟩, "label_1") (by decide +kernel) (⟨3⟩, "label_2") (by decide +kernel),
    numbers (⟨3⟩, "label_2") (by decide +kernel), receiver, declared,
    shared _ _ _ _ receiver declared, lookups _⟩

end Frame

end ScriptLowering
