import ScriptLowering.Draft.Builder
import ScriptLowering.Proofs.Callable.Grammar
import ScriptLowering.Proofs.Callable.RoundTrip
import ScriptLowering.Proofs.Compiler.Streaming
import ScriptLowering.Proofs.Frame.Offence
import ScriptLowering.Proofs.Literal.StringPayload

/-!
# What is built can be lowered

Calls to the builder are lawful if they name the receiver or variables that the builder has
returned, and if string constants have payloads that can be read. The invariant of a run of lawful
calls is `Draft.Sound`: the variables returned so far are those below the next number, each of them
is a parameter or introduced by one instruction, and no instruction offends. The central theorem is
that whatever has been built can be lowered, directly and in tuple form.
-/

namespace ScriptLowering

namespace DraftCall

/-- The variables that a call names. -/
def arguments : DraftCall → List Variable
  | .fetch object _ => [object]
  | .unary _ operand => [operand]
  | .binary _ left right => [left, right]
  | .call _ arguments => arguments
  | .assign result source => [result, source]
  | .jumpIfFalse condition _ => [condition]
  | .ret value => value.toList
  | .free subject => [subject]
  | .param | .const _ _ | .string _ | .long _ | .double _ | .declare | .freshLabel | .label _
  | .jump _ => []

/-- If the call makes a string constant of a payload, then the payload can be read. -/
def IsReadable (call : DraftCall) : Prop :=
  ∀ payload, call = .const .string payload → ∃ value, Payload.readString payload = .ok value

end DraftCall

/-- The variable that the builder returns, if any. -/
def DraftAnswer.value? : DraftAnswer → Option Variable
  | .value subject => some subject
  | .label _ | .nothing => none

/-- The variable that the builder returns as a parameter, if any. -/
def DraftCall.param? (call : DraftCall) (answer : DraftAnswer) : Option Variable :=
  match call with
  | .param => answer.value?
  | _ => none

namespace Draft

/-- Answer calls in order. -/
def buildAll (draft : Draft) : List DraftCall → List DraftAnswer × Draft
  | [] => ([], draft)
  | call :: rest =>
      let (answer, next) := draft.build call
      let (answers, final) := next.buildAll rest
      (answer :: answers, final)

/-- The draft that calls build from nothing. -/
def built (calls : List DraftCall) : Draft :=
  (({} : Draft).buildAll calls).2

/-- The variables that calls return, in order. -/
def returned (calls : List DraftCall) : List Variable :=
  (({} : Draft).buildAll calls).1.filterMap DraftAnswer.value?

/-- The variables that calls for a parameter return, in order. -/
def parameters (calls : List DraftCall) : List Variable :=
  (calls.zip (({} : Draft).buildAll calls).1).filterMap fun (call, answer) => call.param? answer

/-- Calls that name only the receiver and variables that earlier calls have returned, with payloads
that can be read and fewer variables than there are numbers for. -/
structure Lawful (calls : List DraftCall) : Prop where
  named : ∀ position call, calls[position]? = some call → ∀ subject ∈ call.arguments,
    subject = .receiver ∨ subject ∈ returned (calls.take position)
  readable : ∀ call ∈ calls, call.IsReadable
  few : (returned calls).length < 4294967295

variable {calls : List DraftCall} {call : DraftCall}

@[simp]
theorem buildAll_concat (draft : Draft) (calls : List DraftCall) (call : DraftCall) :
    draft.buildAll (calls ++ [call]) =
      ((draft.buildAll calls).1 ++ [((draft.buildAll calls).2.build call).1],
        ((draft.buildAll calls).2.build call).2) := by
  induction calls generalizing draft with
  | nil => rfl
  | cons first rest induction =>
      rw [List.cons_append, buildAll, buildAll]
      dsimp only
      rw [induction]
      rfl

@[simp]
theorem length_buildAll (draft : Draft) (calls : List DraftCall) :
    (draft.buildAll calls).1.length = calls.length := by
  induction calls generalizing draft with
  | nil => rfl
  | cons call rest induction => exact congrArg (· + 1) (induction _)

@[simp]
theorem built_concat (calls : List DraftCall) (call : DraftCall) :
    built (calls ++ [call]) = ((built calls).build call).2 := by
  simp [built]

@[simp]
theorem returned_concat (calls : List DraftCall) (call : DraftCall) :
    returned (calls ++ [call]) = returned calls ++ ((built calls).build call).1.value?.toList := by
  rw [returned, buildAll_concat, List.filterMap_append]
  rfl

@[simp]
theorem parameters_concat (calls : List DraftCall) (call : DraftCall) :
    parameters (calls ++ [call]) =
      parameters calls ++ (call.param? ((built calls).build call).1).toList := by
  rw [parameters, buildAll_concat, List.zip_append (length_buildAll _ calls).symm,
    List.filterMap_append]
  rfl

theorem Lawful.of_concat (lawful : Lawful (calls ++ [call])) : Lawful calls where
  named := by
    intro position earlier standing
    obtain ⟨inside, -⟩ := List.getElem?_eq_some_iff.mp standing
    rw [← List.take_append_of_le_length inside.le]
    exact lawful.named position earlier (by rw [List.getElem?_append_left inside, standing])
  readable := fun earlier listed => lawful.readable earlier (List.mem_append_left _ listed)
  few := by
    have bounded := lawful.few
    rw [returned_concat, List.length_append] at bounded
    omega

theorem Lawful.named_last (lawful : Lawful (calls ++ [call])) :
    ∀ subject ∈ call.arguments, subject = .receiver ∨ subject ∈ returned calls := by
  have last := lawful.named calls.length call (by simp)
  rwa [List.take_left] at last

end Draft

namespace Instr

variable {known more : List Variable} {body : List Instr} {instr : Instr}

theorem offence?_eq_none (lively : instr ≠ .recurse)
    (readable : ∀ result payload, instr = .const result .string payload →
      ∃ value, Payload.readString payload = .ok value)
    (mentioned : instr.emits → ∀ subject ∈ instr.mentions, subject ∈ known) :
    instr.offence? known = none := by
  rw [← Option.not_isSome_iff_eq_none, Option.isSome_iff_exists, exists_offence?_iff]
  rintro (recursive | ⟨result, payload, fault, constant, failed⟩ |
    ⟨emits, subject, listed, unknown⟩)
  · exact lively recursive
  · obtain ⟨value, read⟩ := readable result payload constant
    cases read.symm.trans failed
  · exact unknown (mentioned emits subject listed)

/-- Where more is known, there is no offence that there was not. -/
theorem offence?_mono (subset : known ⊆ more) (fine : instr.offence? known = none) :
    instr.offence? more = none := by
  rw [← Option.not_isSome_iff_eq_none, Option.isSome_iff_exists, exists_offence?_iff] at fine ⊢
  rintro (recursive | unreadable | ⟨emits, subject, listed, unknown⟩)
  · exact fine (.inl recursive)
  · exact fine (.inr (.inl unreadable))
  · exact fine (.inr (.inr ⟨emits, subject, listed, fun held => unknown (subset held)⟩))

theorem offenceAt?_mono (subset : known ⊆ more)
    (fine : ∀ position, offenceAt? known body position = none) (position : Nat) :
    offenceAt? more body position = none := by
  have here := fine position
  rw [offenceAt?] at here ⊢
  cases standing : body[position]? with
  | none => rfl
  | some instr =>
      rw [standing, Option.bind_some] at here
      have longer : known ++ (body.take position).filterMap introduced? ⊆
          more ++ (body.take position).filterMap introduced? :=
        List.append_subset.mpr ⟨List.Subset.trans subset (List.subset_append_left _ _),
          List.subset_append_right _ _⟩
      exact offence?_mono longer here

/-- A body without offence stays so if the next instruction has none. -/
theorem offenceAt?_concat (fine : ∀ position, offenceAt? known body position = none)
    (next : instr.offence? (known ++ body.filterMap introduced?) = none) (position : Nat) :
    offenceAt? known (body ++ [instr]) position = none := by
  rcases Nat.lt_trichotomy position body.length with inside | rfl | outside
  · have here := fine position
    rw [offenceAt?] at here ⊢
    rwa [List.getElem?_append_left inside, List.take_append_of_le_length inside.le]
  · rw [offenceAt?, List.getElem?_concat_length, List.take_left]
    exact next
  · rw [offenceAt?, List.getElem?_eq_none (by simp; omega)]
    rfl

end Instr

namespace Draft

/-- The variable with a number. -/
def numbered (number : Nat) : Variable :=
  .ofWord (UInt32.ofNat number)

/-- A draft for which the builder has returned some values, some of them as parameters. The values
are the variables below the next number, each is a parameter or introduced by one instruction, and
no instruction offends. -/
structure Sound (draft : Draft) (params values : List Variable) : Prop where
  values_eq : values = (List.range draft.nextVariable).map numbered
  introduced : (params ++ draft.instrs.toList.filterMap Instr.introduced?).Perm values
  fine : ∀ position,
    Instr.offenceAt? (.receiver :: params) draft.instrs.toList position = none

variable {draft : Draft} {params values : List Variable} {instr : Instr}

@[simp]
theorem toList_push (draft : Draft) (instr : Instr) :
    (draft.push instr).instrs.toList = draft.instrs.toList ++ [instr] :=
  Array.toList_push

@[simp]
theorem freshVariable_instrs (draft : Draft) : draft.freshVariable.2.instrs = draft.instrs :=
  rfl

theorem sound_empty : ({} : Draft).Sound [] [] where
  values_eq := rfl
  introduced := .refl []
  fine _ := rfl

namespace Sound

theorem values_succ (sound : draft.Sound params values) :
    values ++ [draft.freshVariable.1] =
      (List.range (draft.nextVariable + 1)).map numbered := by
  rw [List.range_succ, List.map_append, ← sound.values_eq]
  rfl

/-- A new parameter. -/
theorem param (sound : draft.Sound params values) :
    draft.freshVariable.2.Sound (params ++ [draft.freshVariable.1])
      (values ++ [draft.freshVariable.1]) where
  values_eq := sound.values_succ
  introduced := by
    have moved : (params ++ ([draft.freshVariable.1] ++
          draft.instrs.toList.filterMap Instr.introduced?)).Perm
        (params ++ (draft.instrs.toList.filterMap Instr.introduced? ++
          [draft.freshVariable.1])) :=
      List.perm_append_comm.append_left _
    rw [← List.append_assoc, ← List.append_assoc] at moved
    exact moved.trans (sound.introduced.append_right _)
  fine := by
    apply Instr.offenceAt?_mono _ sound.fine
    rw [← List.cons_append]
    exact List.subset_append_left _ _

/-- An instruction that introduces the next variable. -/
theorem introduce (sound : draft.Sound params values)
    (introduces : instr.introduced? = some draft.freshVariable.1)
    (readable : ∀ result payload, instr = .const result .string payload →
      ∃ value, Payload.readString payload = .ok value) :
    (draft.freshVariable.2.push instr).Sound params (values ++ [draft.freshVariable.1]) where
  values_eq := sound.values_succ
  introduced := by
    simpa [introduces, ← List.append_assoc] using sound.introduced.append_right _
  fine := by
    have silent : ¬ instr.emits := by
      cases instr with
      | const _ _ _ | declare _ => simp [Instr.emits]
      | _ => cases introduces
    have lively : instr ≠ .recurse := by
      rintro rfl
      cases introduces
    rw [toList_push]
    exact Instr.offenceAt?_concat sound.fine
      (Instr.offence?_eq_none lively readable fun emits => absurd emits silent)

/-- An instruction that mentions only the receiver and values that have been returned. -/
theorem push (sound : draft.Sound params values) (silent : instr.introduced? = none)
    (lively : instr ≠ .recurse)
    (mentioned : ∀ subject ∈ instr.mentions, subject = .receiver ∨ subject ∈ values) :
    (draft.push instr).Sound params values where
  values_eq := sound.values_eq
  introduced := by
    simpa [silent] using sound.introduced
  fine := by
    rw [toList_push]
    apply Instr.offenceAt?_concat sound.fine
    apply Instr.offence?_eq_none lively
    · rintro result payload rfl
      cases silent
    · intro _ subject listed
      rw [List.cons_append, List.mem_cons, sound.introduced.mem_iff]
      exact mentioned subject listed

/-- An instruction with a new variable for its result. -/
theorem addValue (sound : draft.Sound params values) {make : Variable → Instr}
    (silent : ∀ result, (make result).introduced? = none)
    (lively : ∀ result, make result ≠ .recurse)
    (mentioned : ∀ result, ∀ subject ∈ (make result).mentions,
      subject = result ∨ subject = .receiver ∨ subject ∈ values) :
    (draft.addValue make).2.Sound params (values ++ [draft.freshVariable.1]) := by
  have declared : (draft.freshVariable.2.push (.declare draft.freshVariable.1)).Sound params
      (values ++ [draft.freshVariable.1]) :=
    sound.introduce rfl (by simp)
  refine declared.push (silent _) (lively _) fun subject listed => ?_
  rcases mentioned _ subject listed with rfl | receiver | returned
  · exact .inr (List.mem_append_right _ (List.mem_singleton_self _))
  · exact .inl receiver
  · exact .inr (List.mem_append_left _ returned)

/-- A constant with a payload that can be read. -/
theorem addConst (sound : draft.Sound params values) {type : ConstType} {payload : String}
    (readable : type = .string → ∃ value, Payload.readString payload = .ok value) :
    (draft.addConst type payload).2.Sound params (values ++ [draft.freshVariable.1]) := by
  apply sound.introduce rfl
  intro result other same
  cases same
  exact readable rfl

theorem of_no_param (sound : draft.Sound params values) : draft.Sound (params ++ []) values := by
  rwa [List.append_nil]

theorem of_nothing (sound : draft.Sound params values) :
    draft.Sound (params ++ []) (values ++ []) := by
  rwa [List.append_nil, List.append_nil]

/-- What one call to the builder preserves. -/
theorem build (sound : draft.Sound params values) {call : DraftCall}
    (named : ∀ subject ∈ call.arguments, subject = .receiver ∨ subject ∈ values)
    (readable : call.IsReadable) :
    (draft.build call).2.Sound (params ++ (call.param? (draft.build call).1).toList)
      (values ++ (draft.build call).1.value?.toList) := by
  -- What a call is given is all that its instruction mentions, a new result apart.
  cases call with
  | param => exact sound.param
  | const type payload =>
      apply (sound.addConst _).of_no_param
      rintro rfl
      exact readable payload rfl
  | string value =>
      exact (sound.addConst fun _ => ⟨value, Payload.readString_ofString value⟩).of_no_param
  | long value | double value => exact (sound.addConst (by simp)).of_no_param
  | declare => exact (sound.introduce rfl (by simp)).of_no_param
  | fetch object property | unary op operand | binary op left right | call callee arguments =>
      refine (sound.addValue (fun _ => rfl) (by simp) fun result subject listed => ?_).of_no_param
      rcases List.mem_append.mp listed with operand | written
      · exact .inr (named subject operand)
      · exact .inl (List.mem_singleton.mp written)
  | freshLabel =>
      have unchanged : draft.freshLabel.2.Sound params values :=
        ⟨sound.values_eq, sound.introduced, sound.fine⟩
      exact unchanged.of_nothing
  | assign result source =>
      refine (sound.push rfl (by simp) fun subject listed => named subject ?_).of_nothing
      exact List.mem_append.mpr (List.mem_append.mp listed).symm
  | label target | jump target =>
      exact (sound.push rfl (by simp) fun _ listed => by cases listed).of_nothing
  | jumpIfFalse condition target =>
      have pushed : (draft.push (.jumpIfFalse condition target)).Sound params values :=
        sound.push rfl (by simp) named
      exact pushed.of_nothing
  | ret value =>
      refine (sound.push rfl (by simp) fun subject listed => named subject ?_).of_nothing
      rcases List.mem_append.mp listed with operand | written
      · exact operand
      · cases written
  | free subject =>
      have pushed : (draft.push (.free subject)).Sound params values :=
        sound.push rfl (by simp) named
      exact pushed.of_nothing

end Sound

/-- What a run of lawful calls preserves. -/
theorem Lawful.sound (lawful : Lawful calls) :
    (built calls).Sound (parameters calls) (returned calls) := by
  induction calls using List.reverseRecOn with
  | nil => exact sound_empty
  | append_singleton calls call induction =>
      have before := induction lawful.of_concat
      simpa using before.build lawful.named_last (lawful.readable call (by simp))

theorem numbered_eq_slot {number : Nat} (fits : number < 4294967295) :
    numbered number = .slot ⟨number, fits⟩ := by
  rw [numbered, Variable.ofWord_eq_slot]
  exact UInt32.toNat_ofNat_of_lt' (Nat.lt_of_lt_of_le fits (by decide))

/-- The numbers of few values are all below the receiver's. -/
theorem Sound.fits_of_mem (sound : draft.Sound params values) (few : values.length < 4294967295)
    {number : Nat} (listed : number ∈ List.range draft.nextVariable) : number < 4294967295 := by
  rw [sound.values_eq, List.length_map, List.length_range] at few
  have below := List.mem_range.mp listed
  omega

theorem Sound.nodup (sound : draft.Sound params values) (few : values.length < 4294967295) :
    values.Nodup := by
  have fits : ∀ number ∈ List.range draft.nextVariable, number < 4294967295 :=
    fun _ => sound.fits_of_mem few
  rw [sound.values_eq]
  apply List.Nodup.map_on _ List.nodup_range
  intro left left_listed right right_listed same
  rw [numbered_eq_slot (fits left left_listed), numbered_eq_slot (fits right right_listed)] at same
  cases same
  rfl

theorem Sound.receiver_notMem (sound : draft.Sound params values)
    (few : values.length < 4294967295) : .receiver ∉ values := by
  intro received
  rw [sound.values_eq] at received
  obtain ⟨number, listed, same⟩ := List.mem_map.mp received
  rw [numbered_eq_slot (sound.fits_of_mem few listed)] at same
  cases same

/-- A sound draft can be lowered with any parameters that include its own. -/
theorem Sound.exists_lower (sound : draft.Sound params values) {name : String}
    {all : List Variable} (included : ∀ subject ∈ params, subject ∈ all) (naming : Naming) :
    ∃ code, (draft.toCallable name all).lower naming = .ok code := by
  apply Callable.lower_eq_ok_of_fine
  apply Instr.offenceAt?_mono _ sound.fine
  exact List.cons_subset_cons _ included

/-- What lawful calls build can be lowered, however many labels they make. The variables that they
return differ and none is the receiver, each of them is introduced exactly once, as a parameter, by
a declaration or by a constant, and a function of the draft with any parameters that include its
own can be lowered, with the same code from its tuple form. -/
theorem lawful_drafts_lower (lawful : Lawful calls) :
    (returned calls).Nodup ∧ .receiver ∉ returned calls ∧
      (∀ subject ∈ returned calls,
        (parameters calls ++ (built calls).instrs.toList.filterMap Instr.introduced?).count
          subject = 1) ∧
      ∀ (naming : Naming) (name : String) (params : List Variable),
        (∀ subject ∈ parameters calls, subject ∈ params) →
        ∃ code,
          (({ naming } : Compiler).lower ((built calls).toCallable name params)).1 = .ok code ∧
          (({ naming } : Compiler).lowerTuples ((built calls).toCallable name params).encode).1 =
            .ok code := by
  have sound := lawful.sound
  have nodup := sound.nodup lawful.few
  refine ⟨nodup, sound.receiver_notMem lawful.few, ?_, ?_⟩
  · intro subject listed
    rw [sound.introduced.count_eq]
    exact List.count_eq_one_of_mem nodup listed
  · intro naming name params included
    obtain ⟨code, lowered⟩ := sound.exists_lower included naming
    have direct : (({ naming } : Compiler).lower ((built calls).toCallable name params)).1 =
        .ok code := by
      rw [Compiler.lower_of_uncached rfl, Compiler.remember_fst, lowered]
    refine ⟨code, direct, ?_⟩
    rw [Compiler.lowerTuples_of_decode (Callable.decode_encode _), direct]

/-- Calls with both sorts of string constants, a jump ahead and a parameter at the end. -/
def greeting : List DraftCall :=
  [.param, .string "it's", .const .string " aGk= ", .fetch .receiver "name",
    .call "join" [.ofWord 0, .ofWord 1, .ofWord 2, .ofWord 3], .freshLabel,
    .jumpIfFalse (.ofWord 4) ⟨0⟩, .assign (.ofWord 0) (.ofWord 4), .label ⟨0⟩, .free (.ofWord 3),
    .ret (some (.ofWord 0)), .param]

theorem lawful_greeting : Lawful greeting where
  named := by
    intro position call standing
    obtain ⟨inside, -⟩ := List.getElem?_eq_some_iff.mp standing
    have bounded : position < 12 := inside
    interval_cases position <;> obtain rfl := Option.some.inj standing <;> decide +kernel
  readable := by
    rintro call listed payload rfl
    have payload_eq : payload = " aGk= " := by simpa [greeting] using listed
    have read : Payload.readString " aGk= " = .ok "hi" := by decide +kernel
    exact ⟨"hi", payload_eq ▸ read⟩
  few := by decide +kernel

/-- The parameters may come in another order and among others. -/
theorem greeting_drafts_lower :
    Lawful greeting ∧ (returned greeting).Nodup ∧ .receiver ∉ returned greeting ∧
      (parameters greeting ++ (built greeting).instrs.toList.filterMap Instr.introduced?).count
        (.ofWord 4) = 1 ∧
      ∃ code,
        (({} : Compiler).lower
          ((built greeting).toCallable "greet" [.ofWord 5, .ofWord 9, .ofWord 0])).1 = .ok code ∧
        (({} : Compiler).lowerTuples
          ((built greeting).toCallable "greet" [.ofWord 5, .ofWord 9, .ofWord 0]).encode).1 =
          .ok code := by
  obtain ⟨nodup, receiver_notMem, once, lowers⟩ := lawful_drafts_lower lawful_greeting
  exact ⟨lawful_greeting, nodup, receiver_notMem, once (.ofWord 4) (by decide +kernel),
    lowers {} "greet" _ (by decide +kernel)⟩

end Draft

end ScriptLowering
