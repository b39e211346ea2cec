import ScriptLowering.Proofs.Callable.Grammar

/-!
# The first fault of a callable

A callable in tuple form is read from its first item to its last, and reading stops at the first
item that does not fit what stands in front of it. A failure that names an item names that one, and
no failure depends on what follows. Only behind a recursive call is the fault of an instruction
replaced, and only a missing body is reported behind the last item.
-/

namespace ScriptLowering

/-- Every failure of a result is of a sort. -/
def Blames {α : Type} (sort : Failure → Prop) (result : Except Failure α) : Prop :=
  ∀ failure, result = .error failure → sort failure

namespace Blames

variable {α β : Type} {sort : Failure → Prop}

theorem ok (value : α) : Blames sort (.ok value) := by
  intro failure failed
  cases failed

theorem error {failure : Failure} (admitted : sort failure) :
    Blames sort (.error failure : Except Failure α) := by
  intro reported failed
  rwa [← Except.error.inj failed]

theorem bind {result : Except Failure α} {next : α → Except Failure β} (first : Blames sort result)
    (then_next : ∀ value, Blames sort (next value)) : Blames sort (result >>= next) := by
  cases result with
  | ok value => exact then_next value
  | error failure => exact .error (first failure rfl)

theorem mapM {convert : α → Except Failure β} (each : ∀ item, Blames sort (convert item))
    (list : List α) : Blames sort (list.mapM convert) := by
  intro failure failed
  obtain ⟨front, item, back, values, -, -, failed⟩ := Except.exists_of_mapM_eq_error failed
  exact each item failure failed

end Blames

namespace Failure

/-- The failure names the item at an index. -/
def IsAt (index : Nat) (failure : Failure) : Prop :=
  ∃ fault, failure = .item index fault

/-- The failure names an unknown tag, of an instruction or of a type. -/
def IsUnknownTag (failure : Failure) : Prop :=
  ∃ tag, failure = .operation tag ∨ failure = .constType tag

/-- The failure is one that an instruction at an index can have. -/
def IsOfInstr (index : Nat) (failure : Failure) : Prop :=
  failure.IsAt index ∨ failure.IsUnknownTag

theorem not_isAt_recursion (index : Nat) : ¬ recursion.IsAt index := by
  rintro ⟨fault, located⟩
  cases located

theorem not_isUnknownTag_recursion : ¬ recursion.IsUnknownTag := by
  rintro ⟨tag, unknown | unknown⟩ <;> cases unknown

theorem IsUnknownTag.not_isAt {failure : Failure} (unknown : failure.IsUnknownTag) (index : Nat) :
    ¬ failure.IsAt index := by
  rintro ⟨fault, rfl⟩
  obtain ⟨tag, unknown | unknown⟩ := unknown <;> cases unknown

end Failure

namespace Tuple

variable {sort : Failure → Prop} {tuple : Tuple}

theorem blames_ofItem {index : Nat} (admits : ∀ fault, sort (.item index fault)) (item : Json) :
    Blames sort (ofItem index item) := by
  unfold ofItem
  split
  · exact .error (admits _)
  · exact .ok _
  · exact .error (admits _)

theorem blames_field (admits : ∀ fault, sort (.item tuple.index fault)) (position : Nat) :
    Blames sort (tuple.field position) := by
  unfold field
  split
  · exact .ok _
  · exact .error (admits _)

theorem blames_text (admits : ∀ fault, sort (.item tuple.index fault)) (position : Nat) :
    Blames sort (tuple.text position) := by
  refine (blames_field admits position).bind fun value => ?_
  split
  · exact .ok _
  · exact .error (admits _)

theorem blames_count (admits : ∀ fault, sort (.item tuple.index fault)) (position : Nat) :
    Blames sort (tuple.count position) := by
  refine (blames_field admits position).bind fun value => ?_
  split
  · exact .ok _
  · exact .error (admits _)

theorem blames_word (admits : ∀ fault, sort (.item tuple.index fault)) (position : Nat) :
    Blames sort (tuple.word position) := by
  refine (blames_field admits position).bind fun value => ?_
  split
  · exact .ok _
  · exact .error (admits _)

theorem blames_labelAt (admits : ∀ fault, sort (.item tuple.index fault)) (position : Nat) :
    Blames sort (tuple.labelAt position) :=
  (blames_word admits position).bind fun _ => .ok _

theorem blames_variableAt (admits : ∀ fault, sort (.item tuple.index fault)) (position : Nat) :
    Blames sort (tuple.variableAt position) := by
  refine (blames_field admits position).bind fun value => ?_
  split
  · exact .ok _
  · refine (blames_word admits position).bind fun word => ?_
    split
    · exact .error (admits _)
    · exact .ok _

theorem blames_payload (admits : ∀ fault, sort (.item tuple.index fault)) (position : Nat) :
    Blames sort (tuple.payload position) := by
  refine (blames_field admits position).bind fun value => ?_
  split
  · exact .ok _
  · exact .error (admits _)

end Tuple

namespace Instr

open ScriptLowering.Tuple

variable {tuple : Tuple}

theorem admits_item (index : Nat) (fault : TupleFault) :
    (Failure.item index fault).IsOfInstr index :=
  .inl ⟨fault, rfl⟩

theorem blames_ofConstTuple (tuple : Tuple) :
    Blames (Failure.IsOfInstr tuple.index) (ofConstTuple tuple) := by
  refine (blames_variableAt (admits_item _) 1).bind fun result => ?_
  refine (blames_text (admits_item _) 2).bind fun tag => ?_
  split
  · exact (blames_payload (admits_item _) 3).bind fun _ => .ok _
  · exact .error (.inr ⟨tag, .inr rfl⟩)

theorem blames_ofOperatorTuple (tuple : Tuple) (symbol : String) :
    Blames (Failure.IsOfInstr tuple.index) (ofOperatorTuple tuple symbol) := by
  have subjects := fun position => blames_variableAt (admits_item tuple.index) position
  unfold ofOperatorTuple
  split
  · exact (subjects 1).bind fun _ => (subjects 2).bind fun _ => .ok _
  · exact (subjects 1).bind fun _ => (subjects 2).bind fun _ => (subjects 3).bind fun _ => .ok _
  · exact .error (.inr ⟨symbol, .inl rfl⟩)

theorem blames_ofReturnTuple (tuple : Tuple) :
    Blames (Failure.IsOfInstr tuple.index) (ofReturnTuple tuple) := by
  unfold ofReturnTuple
  split
  · exact .ok _
  · exact .ok _
  · exact (blames_variableAt (admits_item _) 1).bind fun _ => .ok _

theorem blames_ofCallTuple (tuple : Tuple) :
    Blames (Failure.IsOfInstr tuple.index) (ofCallTuple tuple) := by
  have subjects := fun position => blames_variableAt (admits_item tuple.index) position
  simp only [ofCallTuple]
  split
  · exact .error (admits_item _ _)
  · refine (Blames.mapM subjects _).bind fun _ => ?_
    exact (blames_text (admits_item _) 1).bind fun _ => (subjects _).bind fun _ => .ok _

/-- An item that is no instruction is blamed itself, or an unknown tag in it. -/
theorem blames_ofTuple (tuple : Tuple) :
    Blames (Failure.IsOfInstr tuple.index) (ofTuple tuple) := by
  have texts := fun position => blames_text (admits_item tuple.index) position
  have subjects := fun position => blames_variableAt (admits_item tuple.index) position
  have labels := fun position => blames_labelAt (admits_item tuple.index) position
  refine (texts 0).bind fun tag => ?_
  split
  · exact (subjects 1).bind fun _ => .ok _
  · exact blames_ofConstTuple tuple
  · exact (subjects 1).bind fun _ => .ok _
  · exact (subjects 1).bind fun _ => (subjects 2).bind fun _ => .ok _
  · exact (texts 1).bind fun _ => (subjects 2).bind fun _ => (subjects 3).bind fun _ => .ok _
  · exact (labels 1).bind fun _ => .ok _
  · exact (labels 1).bind fun _ => .ok _
  · exact (subjects 1).bind fun _ => (labels 2).bind fun _ => .ok _
  · exact blames_ofReturnTuple tuple
  · exact .ok _
  · exact blames_ofCallTuple tuple
  · exact blames_ofOperatorTuple tuple _

theorem blames_ofItem (index : Nat) (item : Json) :
    Blames (Failure.IsOfInstr index) (ofItem index item) := by
  intro failure failed
  cases split : Tuple.ofItem index item with
  | error reported =>
      rw [ofItem, split] at failed
      obtain rfl : reported = failure := Except.error.inj failed
      exact Tuple.blames_ofItem (admits_item index) item reported split
  | ok tuple =>
      rw [ofItem, split] at failed
      obtain ⟨-, -, index_eq⟩ := Tuple.ofItem_eq_ok.mp split
      have blamed := blames_ofTuple tuple failure failed
      rwa [← index_eq] at blamed

variable {items : List (Except Failure Instr)} {run : List Instr} {fault : Failure}

/-- A body in which reading stops is reported with the fault there, or else as recursive. -/
theorem collect_of_stopsAt {recursive : Bool} (stops : StopsAt items run fault) :
    collect recursive items =
      .error (if recursive || run.contains .recurse then .recursion else fault) := by
  obtain ⟨rest, rfl⟩ := stops
  induction run generalizing recursive with
  | nil => simp [collect]
  | cons instr run induction =>
      rw [List.map_cons, List.cons_append, collect, induction, List.contains_cons, Bool.or_assoc,
        BEq.comm]
      rfl

@[simp]
theorem ofItems_append (start : Nat) (front back : List Json) :
    ofItems start (front ++ back) =
      ofItems start front ++ ofItems (start + front.length) back := by
  simp [ofItems, List.zipIdx_append]

theorem stopsAt_ofItems {start : Nat} {items : List Json} :
    StopsAt (ofItems start items) run fault ↔
      ∃ front item back, items = front ++ item :: back ∧
        List.Forall₂ Grammar.InstrItem front run ∧
        ofItem (start + front.length) item = .error fault := by
  constructor
  · rintro ⟨rest, items_eq⟩
    induction run generalizing start items with
    | nil =>
        cases items with
        | nil => cases items_eq
        | cons item items =>
            rw [ofItems_cons] at items_eq
            exact ⟨[], item, items, rfl, .nil, (List.cons.inj items_eq).1⟩
    | cons instr run induction =>
        cases items with
        | nil => cases items_eq
        | cons item items =>
            rw [ofItems_cons] at items_eq
            obtain ⟨item_eq, items_eq⟩ := List.cons.inj items_eq
            obtain ⟨front, stop, back, rfl, instructions, failed⟩ := induction items_eq
            have item_instr := ofItem_eq_ok.mp item_eq
            refine ⟨item :: front, stop, back, rfl, .cons item_instr instructions, ?_⟩
            rwa [List.length_cons, Nat.add_comm front.length, ← Nat.add_assoc]
  · rintro ⟨front, item, back, rfl, instructions, failed⟩
    refine ⟨ofItems (start + front.length + 1) back, ?_⟩
    simp [ofItems_eq_map_ok.mpr instructions, failed]

end Instr

namespace Opening

open Grammar

variable {kind : CallableKind} {name : String} {declared index : Nat}
  {before params : List Variable} {items : List Json} {item : Json} {failure : Failure}

/-- What an item in front of the body is read as: a parameter, or nothing for the mark behind the
last one. -/
def readItem (declared : Nat) (before : List Variable) (index : Nat) (item : Json) :
    Except Failure (Option Variable) := do
  let tuple ← Tuple.ofItem index item
  match ← tuple.text 0 with
  | "begin" =>
      if before.length = declared then return none
      else .error (.item index (.parameterCount declared before.length))
  | "param" => return some (← tuple.variableAt 1)
  | tag => .error (.item index (.strayItem tag))

/-- What is opened once an item has been read. -/
def proceed (kind : CallableKind) (name : String) (declared : Nat) (before : List Variable)
    (index : Nat) (rest : List Json) : Option Variable → Except Failure Opening
  | none => .ok ⟨⟨kind, name, before⟩, index + 1, rest⟩
  | some param => ofItems kind name declared (before ++ [param]) (index + 1) rest

theorem ofItems_cons (kind : CallableKind) (name : String) (declared : Nat)
    (before : List Variable) (index : Nat) (item : Json) (rest : List Json) :
    ofItems kind name declared before index (item :: rest) =
      readItem declared before index item >>=
        proceed kind name declared before index rest := by
  rw [ofItems, readItem, bind_assoc]
  refine bind_congr fun tuple => ?_
  rw [bind_assoc]
  refine bind_congr fun tag => ?_
  by_cases begins : tag = "begin"
  · subst begins
    by_cases counted : before.length = declared
    · simp only [if_pos counted]
      rfl
    · simp only [if_neg counted]
      rfl
  · by_cases declares : tag = "param"
    · subst declares
      exact (bind_assoc (tuple.variableAt 1) (fun param => pure (some param))
        (proceed kind name declared before index rest)).symm
    · -- Simplification rules out both words by the hypotheses at hand.
      simp only
      rfl

theorem blames_readItem (declared : Nat) (before : List Variable) (index : Nat) (item : Json) :
    Blames (Failure.IsAt index) (readItem declared before index item) := by
  intro failure failed
  cases split : Tuple.ofItem index item with
  | error reported =>
      rw [readItem, split] at failed
      obtain rfl : reported = failure := Except.error.inj failed
      exact Tuple.blames_ofItem (fun fault => ⟨fault, rfl⟩) item reported split
  | ok tuple =>
      obtain ⟨-, -, rfl⟩ := Tuple.ofItem_eq_ok.mp split
      rw [readItem, split] at failed
      have admits : ∀ fault, (Failure.item tuple.index fault).IsAt tuple.index :=
        fun fault => ⟨fault, rfl⟩
      refine Blames.bind (Tuple.blames_text admits 0) (fun tag => ?_) failure failed
      split
      · split
        · exact .ok _
        · exact .error (admits _)
      · exact (Tuple.blames_variableAt admits 1).bind fun _ => .ok _
      · exact .error (admits _)

theorem readItem_of_paramItem {param : Variable} (param_item : ParamItem item param) :
    readItem declared before index item = .ok (some param) := by
  obtain ⟨surplus, param_field⟩ := param_item
  refine Except.bind_eq_ok.mpr ⟨_, rfl, Tuple.bind_text_eq_ok.mpr ⟨"param", rfl, ?_⟩⟩
  exact Tuple.reads_variableAt.bind_eq_ok.mpr ⟨_, _, rfl, param_field, rfl⟩

theorem paramItem_of_readItem {param : Variable}
    (read : readItem declared before index item = .ok (some param)) : ParamItem item param := by
  obtain ⟨tuple, split, read⟩ := Except.bind_eq_ok.mp read
  obtain ⟨-, item_eq, -⟩ := Tuple.ofItem_eq_ok.mp split
  obtain ⟨tag, tagged, read⟩ := Tuple.bind_text_eq_ok.mp read
  split at read
  · split at read <;> cases read
  · obtain ⟨field, subject, standing, subject_field, read⟩ :=
      Tuple.reads_variableAt.bind_eq_ok.mp read
    obtain rfl := Option.some.inj (Except.ok.inj read)
    rw [item_eq, Instr.fields_eq [_, _] ⟨tagged, standing, trivial⟩]
    exact .mk _ subject_field
  · cases read

/-- Nothing but parameters is reported behind the last of them. -/
theorem ofItems_of_paramItems (parameters : List.Forall₂ ParamItem items params) :
    ofItems kind name declared before index items =
      .error (.item (index + items.length) .missingBegin) := by
  induction parameters generalizing before index with
  | nil => rfl
  | @cons item param items params param_item parameters induction =>
      rw [ofItems_cons, readItem_of_paramItem param_item]
      refine induction.trans ?_
      rw [List.length_cons, Nat.add_comm items.length, Nat.add_assoc]

/-- Reading the parameters fails behind the last item, or at an item behind nothing but parameters
and whatever follows it. -/
theorem ofItems_eq_error
    (failed : ofItems kind name declared before index items = .error failure) :
    (∃ params, List.Forall₂ ParamItem items params ∧
      failure = .item (index + items.length) .missingBegin) ∨
    ∃ front item back params, items = front ++ item :: back ∧
      List.Forall₂ ParamItem front params ∧ failure.IsAt (index + front.length) ∧
      ∀ others,
        ofItems kind name declared before index (front ++ item :: others) = .error failure := by
  induction items generalizing before index with
  | nil => exact .inl ⟨[], .nil, (Except.error.inj failed).symm⟩
  | cons item rest induction =>
      rw [ofItems_cons] at failed
      cases read : readItem declared before index item with
      | error reported =>
          rw [read] at failed
          obtain rfl : reported = failure := Except.error.inj failed
          refine .inr ⟨[], item, rest, [], rfl, .nil, blames_readItem _ _ _ _ _ read, ?_⟩
          intro others
          rw [List.nil_append, ofItems_cons, read]
          rfl
      | ok param? =>
          rw [read] at failed
          cases param? with
          | none => cases failed
          | some param =>
              have param_item := paramItem_of_readItem read
              rcases induction failed with
                ⟨params, parameters, rfl⟩ |
                ⟨front, stop, back, params, rfl, parameters, at_stop, same⟩
              · refine .inl ⟨param :: params, .cons param_item parameters, ?_⟩
                rw [List.length_cons, Nat.add_comm rest.length, Nat.add_assoc]
              · refine .inr ⟨item :: front, stop, back, param :: params, rfl,
                  .cons param_item parameters, ?_, ?_⟩
                · rwa [List.length_cons, Nat.add_comm front.length, ← Nat.add_assoc]
                · intro others
                  rw [List.cons_append, ofItems_cons, read]
                  exact same others

end Opening

/-! ## Callables -/

namespace Grammar

/-- An item that opens a callable, whatever number of parameters it declares. -/
inductive HeaderItem : Json → CallableKind → String → Nat → Prop where
  | mk (kind : CallableKind) (name : String) (declared : Nat) (surplus : List Json) :
      HeaderItem (.array (.string kind.tag :: .string name :: .ofNat declared :: surplus)) kind name
        declared

/-- Items that a callable without recursive calls may begin with: none, a header with some of the
parameters, or a whole callable. -/
inductive Beginning : List Json → Prop where
  | empty : Beginning []
  | opening {header : Json} {paramItems : List Json} {kind : CallableKind} {name : String}
      {declared : Nat} {params : List Variable} (header_item : HeaderItem header kind name declared)
      (parameters : List.Forall₂ ParamItem paramItems params) : Beginning (header :: paramItems)
  | whole {items : List Json} {callable : Callable} (form : Form (.array items) callable)
      (plain : .recurse ∉ callable.body) : Beginning items

/-- What a beginning begins with is one, too. -/
theorem Beginning.take {items : List Json} (beginning : Beginning items) (count : Nat) :
    Beginning (items.take count) := by
  cases count with
  | zero => exact .empty
  | succ count =>
      cases beginning with
      | empty => exact .empty
      | opening header_item parameters =>
          exact .opening header_item (List.forall₂_take count parameters)
      | whole form plain =>
          obtain @⟨kind, name, surplus, mark, paramItems, bodyItems, params, body, parameters,
            instructions⟩ := form
          rw [List.take_succ_cons, List.take_append]
          cases behind_eq : count - paramItems.length with
          | zero =>
              rw [List.take_zero, List.append_nil]
              exact .opening (.mk kind name _ surplus) (List.forall₂_take count parameters)
          | succ behind =>
              rw [List.take_of_length_le (by omega), List.take_succ_cons]
              refine .whole (.mk kind name surplus mark parameters
                (List.forall₂_take behind instructions)) fun recursive => ?_
              exact plain (List.mem_of_mem_take recursive)

end Grammar

namespace Callable

open Grammar

variable {items front : List Json} {failure : Failure}

/-- What the first item is read as: the kind, the name and the number of parameters. -/
def readHeader (item : Json) : Except Failure (CallableKind × String × Nat) := do
  let header ← Tuple.ofItem 0 item
  let tag ← header.text 0
  match CallableKind.ofTag? tag with
  | some kind =>
      let name ← header.text 1
      let declared ← header.count 2
      return (kind, name, declared)
  | none => .error (.item 0 (.unknownKind tag))

@[simp]
theorem openTuples_cons (item : Json) (items : List Json) :
    openTuples (.array (item :: items)) =
      readHeader item >>= fun (kind, name, declared) =>
        Opening.afterHeader kind name declared items := by
  simp only [openTuples, readHeader, split, bind_assoc, pure_bind]
  refine bind_congr fun header => bind_congr fun tag => ?_
  cases CallableKind.ofTag? tag with
  | none => rfl
  | some kind => simp only [bind_assoc, pure_bind]

theorem blames_readHeader (item : Json) : Blames (Failure.IsAt 0) (readHeader item) := by
  intro failure failed
  cases split : Tuple.ofItem 0 item with
  | error reported =>
      rw [readHeader, split] at failed
      obtain rfl : reported = failure := Except.error.inj failed
      exact Tuple.blames_ofItem (fun fault => ⟨fault, rfl⟩) item reported split
  | ok header =>
      obtain ⟨-, -, index_eq⟩ := Tuple.ofItem_eq_ok.mp split
      have admits : ∀ fault, (Failure.item header.index fault).IsAt 0 :=
        fun fault => ⟨fault, by rw [index_eq]⟩
      rw [readHeader, split] at failed
      refine Blames.bind (Tuple.blames_text admits 0) (fun tag => ?_) failure failed
      split
      · refine (Tuple.blames_text admits 1).bind fun name => ?_
        exact (Tuple.blames_count admits 2).bind fun _ => .ok _
      · exact .error ⟨_, rfl⟩

theorem headerItem_of_readHeader {item : Json} {kind : CallableKind} {name : String}
    {declared : Nat} (read : readHeader item = .ok (kind, name, declared)) :
    HeaderItem item kind name declared := by
  obtain ⟨header, split, read⟩ := Except.bind_eq_ok.mp read
  obtain ⟨-, item_eq, -⟩ := Tuple.ofItem_eq_ok.mp split
  obtain ⟨tag, tagged, read⟩ := Tuple.bind_text_eq_ok.mp read
  cases known : CallableKind.ofTag? tag with
  | none =>
      rw [known] at read
      cases read
  | some found =>
      rw [known] at read
      obtain ⟨text, text_at, read⟩ := Tuple.bind_text_eq_ok.mp read
      obtain ⟨count, counted, read⟩ := Except.bind_eq_ok.mp read
      cases read
      obtain rfl := CallableKind.ofTag?_eq_some.mp known
      have count_at := Tuple.count_eq_ok_iff.mp counted
      rw [item_eq, Instr.fields_eq [_, _, _] ⟨tagged, text_at, count_at, trivial⟩]
      exact .mk _ _ _ _

theorem readHeader_of_headerItem {item : Json} {kind : CallableKind} {name : String}
    {declared : Nat} (header_item : HeaderItem item kind name declared) :
    readHeader item = .ok (kind, name, declared) := by
  obtain ⟨_, _, _, surplus⟩ := header_item
  refine Except.bind_eq_ok.mpr ⟨_, rfl, Tuple.bind_text_eq_ok.mpr ⟨kind.tag, rfl, ?_⟩⟩
  rw [kind.ofTag?_tag]
  refine Tuple.bind_text_eq_ok.mpr ⟨name, rfl, ?_⟩
  exact Except.bind_eq_ok.mpr ⟨_, Tuple.count_eq_ok_iff.mpr rfl, rfl⟩

theorem decode_of_openTuples_error {value : Json} (failed : openTuples value = .error failure) :
    decode value = .error failure := by
  rw [decode, failed]
  rfl

/-- The header declares more parameters than memory has room for. -/
inductive Overdeclared : List Json → Prop where
  | mk {header : Json} {kind : CallableKind} {name : String} {declared : Nat} (rest : List Json)
      (header_item : HeaderItem header kind name declared)
      (beyond : Opening.capacity < declared) : Overdeclared (header :: rest)

/-- Where reading the items behind the header fails, the callable fails alike, unless too many
parameters are declared. -/
theorem openTuples_of_ofItems_error {header : Json} {rest : List Json} {kind : CallableKind}
    {name : String} {declared : Nat} (header_item : HeaderItem header kind name declared)
    (failed : Opening.ofItems kind name declared [] 1 rest = .error failure) :
    openTuples (.array (header :: rest)) =
      .error (if declared ≤ Opening.capacity then failure else .overflow) := by
  rw [openTuples_cons, readHeader_of_headerItem header_item]
  exact Opening.afterHeader_of_ofItems_error failed

/-- A beginning is a callable, or is reported as too short behind its last item, unless it declares
too many parameters. -/
theorem decode_of_beginning (beginning : Beginning items) :
    (∃ callable, decode (.array items) = .ok callable) ∨
      (∃ fault, decode (.array items) = .error (.item items.length fault)) ∨
      decode (.array items) = .error .overflow := by
  cases beginning with
  | empty => exact .inr (.inl ⟨.noHeader, rfl⟩)
  | whole form plain => exact .inl ⟨_, decode_eq_ok.mpr form⟩
  | @opening header paramItems kind name declared params header_item parameters =>
      have unopened := openTuples_of_ofItems_error header_item
        (Opening.ofItems_of_paramItems parameters)
      have failed := decode_of_openTuples_error unopened
      split at failed
      · refine .inr (.inl ⟨.missingBegin, ?_⟩)
        rwa [List.length_cons, Nat.add_comm]
      · exact .inr (.inr failed)

theorem decode_of_stopsAt {value : Json} {opening : Opening} {run : List Instr} {fault : Failure}
    (opened : openTuples value = .ok opening) (stops : Instr.StopsAt opening.instrs run fault) :
    decode value = .error (if run.contains .recurse then .recursion else fault) := by
  have collected := @Instr.collect_of_stopsAt _ _ _ false stops
  rw [Bool.false_or] at collected
  rw [decode, opened]
  change opening.decode = _
  rw [Opening.decode, collected]
  rfl

/-- A body that cannot be read stops at an item behind a whole callable. -/
theorem body_eq_error {opening : Opening} (opened : openTuples (.array items) = .ok opening)
    (failed : decode (.array items) = .error failure) :
    ∃ front item back callable fault, items = front ++ item :: back ∧
      Form (.array front) callable ∧ Instr.ofItem front.length item = .error fault ∧
      (failure = if .recurse ∈ callable.body then .recursion else fault) ∧
      ∀ others, decode (.array (front ++ item :: others)) = .error failure := by
  obtain ⟨run, fault, stops, failure_eq⟩ := stopsAt_of_decode opened failed
  obtain ⟨kind, name, surplus, paramItems, params, mark, bodyItems, value_eq, parameters, rfl⟩ :=
    openTuples_eq_ok.mp opened
  obtain ⟨bodyFront, item, back, rfl, instructions, unread⟩ := Instr.stopsAt_ofItems.mp stops
  obtain rfl := Json.array.inj value_eq
  refine ⟨_ :: (paramItems ++ .array (.string "begin" :: mark) :: bodyFront), item, back,
    { kind, name, params, body := run }, fault, ?_, .mk kind name surplus mark parameters
      instructions, ?_, ?_, ?_⟩
  · simp
  · have length_eq := parameters.length_eq
    rw [← unread]
    congr 1
    simp only [List.length_cons, List.length_append]
    omega
  · rw [failure_eq]
    simp
  · intro others
    have reopened := openTuples_eq_ok.mpr ⟨kind, name, surplus, paramItems, params, mark,
      bodyFront ++ item :: others, rfl, parameters, rfl⟩
    have stopped : Instr.StopsAt (Instr.ofItems (params.length + 2) (bodyFront ++ item :: others))
        run fault := Instr.stopsAt_ofItems.mpr ⟨bodyFront, item, others, rfl, instructions, unread⟩
    rw [failure_eq, ← decode_of_stopsAt reopened stopped]
    simp

/-- Reading fails because there are no items, or too many parameters are declared, or the items end
before the body, or at an item and whatever follows it. That item is the one behind the beginning
that it fails to go on from, or else the first of a body that is no instruction. -/
theorem decode_eq_error (failed : decode (.array items) = .error failure) :
    (items = [] ∧ failure = .item 0 .noHeader) ∨ (Overdeclared items ∧ failure = .overflow) ∨
    (Beginning items ∧ failure = .item items.length .missingBegin) ∨
    ∃ front item back, items = front ++ item :: back ∧
      (∀ others, decode (.array (front ++ item :: others)) = .error failure) ∧
      ((Beginning front ∧ failure.IsAt front.length) ∨
        ∃ callable fault, Form (.array front) callable ∧
          Instr.ofItem front.length item = .error fault ∧
          failure = if .recurse ∈ callable.body then .recursion else fault) := by
  cases items with
  | nil => exact .inl ⟨rfl, (Except.error.inj failed).symm⟩
  | cons header rest =>
      right
      cases read : readHeader header with
      | error reported =>
          -- The header is read before anything else, so the rest of the items does not matter.
          have unopened : ∀ others, openTuples (.array (header :: others)) = .error reported := by
            intro others
            rw [openTuples_cons, read]
            rfl
          rw [decode_of_openTuples_error (unopened rest)] at failed
          obtain rfl : reported = failure := Except.error.inj failed
          refine .inr (.inr ⟨[], header, rest, rfl, fun others => ?_,
            .inl ⟨.empty, blames_readHeader header reported read⟩⟩)
          exact decode_of_openTuples_error (unopened others)
      | ok declaration =>
          obtain ⟨kind, name, declared⟩ := declaration
          have header_item := headerItem_of_readHeader read
          cases opened : Opening.ofItems kind name declared [] 1 rest with
          | error reported =>
              have unopened := openTuples_of_ofItems_error header_item opened
              rw [decode_of_openTuples_error unopened, Except.error.injEq] at failed
              split at failed
              · rename_i room
                subst failed
                rcases Opening.ofItems_eq_error opened with
                  ⟨params, parameters, rfl⟩ |
                  ⟨front, item, back, params, rfl, parameters, at_item, same⟩
                · refine .inr (.inl ⟨.opening header_item parameters, ?_⟩)
                  rw [List.length_cons, Nat.add_comm]
                · refine .inr (.inr ⟨header :: front, item, back, rfl, fun others => ?_,
                    .inl ⟨.opening header_item parameters, ?_⟩⟩)
                  · have unopened := openTuples_of_ofItems_error header_item (same others)
                    rw [if_pos room] at unopened
                    exact decode_of_openTuples_error unopened
                  · rwa [List.length_cons, Nat.add_comm]
              · rename_i beyond
                exact .inl ⟨.mk rest header_item (Nat.lt_of_not_le beyond), failed.symm⟩
          | ok opening =>
              have whole : openTuples (.array (header :: rest)) = .ok opening := by
                rw [openTuples_cons, read]
                exact Opening.afterHeader_eq_ok.mpr opened
              obtain ⟨front, item, back, callable, fault, items_eq, form, unread, failure_eq,
                same⟩ := body_eq_error whole failed
              exact .inr (.inr ⟨front, item, back, items_eq, same,
                .inr ⟨callable, fault, form, unread, failure_eq⟩⟩)

/-- The failure is settled by the items up to an index: whatever follows them, reading fails with
it. -/
def SettledAt (items : List Json) (index : Nat) (failure : Failure) : Prop :=
  ∀ others, others.take (index + 1) = items.take (index + 1) →
    decode (.array others) = .error failure

/-- The item at an index is the first in the body that cannot be read. It has the given fault, and
the items in front of it make up a callable. -/
structure FirstUnread (items : List Json) (index : Nat) (callable : Callable) (fault : Failure) :
    Prop where
  form : Form (.array (items.take index)) callable
  unread : ∃ item, items[index]? = some item ∧ Instr.ofItem index item = .error fault

theorem settledAt_of_append {item : Json} {back : List Json}
    (same : ∀ others, decode (.array (front ++ item :: others)) = .error failure) :
    SettledAt (front ++ item :: back) front.length failure := by
  intro others agree
  have front_eq : (front ++ item :: back).take (front.length + 1) = front ++ [item] := by
    rw [List.append_cons]
    exact List.take_left' (by simp)
  rw [← List.take_append_drop (front.length + 1) others, agree, front_eq, List.append_assoc]
  exact same _

theorem firstUnread_of_append {item : Json} {back : List Json} {callable : Callable}
    {fault : Failure} (form : Form (.array front) callable)
    (unread : Instr.ofItem front.length item = .error fault) :
    FirstUnread (front ++ item :: back) front.length callable fault where
  form := by rwa [List.take_left]
  unread := ⟨item, by simp, unread⟩

/-- An item at which reading stops is the first with which the items are no beginning. -/
theorem beginning_take_iff {item : Json} {back : List Json} {fault : TupleFault}
    (beginning : Beginning front)
    (failed : decode (.array (front ++ [item])) = .error (.item front.length fault)) (count : Nat) :
    Beginning ((front ++ item :: back).take count) ↔ count ≤ front.length := by
  constructor
  · intro longer
    by_contra beyond
    have front_eq : ((front ++ item :: back).take count).take (front.length + 1) =
        front ++ [item] := by
      rw [List.take_take, Nat.min_eq_left (by omega), List.append_cons]
      exact List.take_left' (by simp)
    -- A beginning that goes past the item has one inside it that ends with the item, and that would
    -- be reported one index further on, if at all.
    have too_long := longer.take (front.length + 1)
    rw [front_eq] at too_long
    rcases decode_of_beginning too_long with
      ⟨callable, decoded⟩ | ⟨other, undecoded⟩ | overflowing
    · rw [failed] at decoded
      cases decoded
    · rw [failed, Except.error.injEq, Failure.item.injEq] at undecoded
      simp at undecoded
    · rw [failed] at overflowing
      cases overflowing
  · intro within
    rw [List.take_append_of_le_length within]
    exact beginning.take count

/-- A failure that names an item stops behind a beginning, unless there are too few items. -/
theorem stop_of_isAt {index : Nat} (failed : decode (.array items) = .error failure)
    (located : failure.IsAt index) :
    (items = [] ∧ index = 0) ∨ (index = items.length ∧ failure = .item index .missingBegin) ∨
    ∃ front item back, items = front ++ item :: back ∧ index = front.length ∧ Beginning front ∧
      ∀ others, decode (.array (front ++ item :: others)) = .error failure := by
  obtain ⟨fault, rfl⟩ := located
  rcases decode_eq_error failed with
    ⟨items_eq, failure_eq⟩ | ⟨-, overflow⟩ | ⟨-, failure_eq⟩ |
    ⟨front, item, back, items_eq, same, stopped⟩
  · exact .inl ⟨items_eq, (Failure.item.inj failure_eq).1⟩
  · cases overflow
  · obtain ⟨rfl, rfl⟩ := Failure.item.inj failure_eq
    exact .inr (.inl ⟨rfl, rfl⟩)
  · refine .inr (.inr ⟨front, item, back, items_eq, ?_⟩)
    rcases stopped with ⟨beginning, other, failure_eq⟩ | ⟨callable, found, form, unread, failure_eq⟩
    · exact ⟨(Failure.item.inj failure_eq).1, beginning, same⟩
    -- In a body the item is to blame only if no recursive call comes before it.
    · split at failure_eq
      · cases failure_eq
      · rename_i plain
        subst failure_eq
        rcases Instr.blames_ofItem _ _ _ unread with ⟨other, failure_eq⟩ | unknown
        · exact ⟨(Failure.item.inj failure_eq).1, .whole form plain, same⟩
        · exact absurd ⟨fault, rfl⟩ (unknown.not_isAt index)

/-- A failure that names no item stops in a body, unless too many parameters are declared. -/
theorem stop_of_not_isAt (failed : decode (.array items) = .error failure)
    (unlocated : ∀ index, ¬ failure.IsAt index) :
    (Overdeclared items ∧ failure = .overflow) ∨
      ∃ index callable fault, FirstUnread items index callable fault ∧
        SettledAt items index failure ∧
        (.recurse ∈ callable.body ∧ failure = .recursion ∨
          .recurse ∉ callable.body ∧ failure = fault ∧ failure.IsUnknownTag) := by
  rcases decode_eq_error failed with
    ⟨-, rfl⟩ | overflowing | ⟨-, rfl⟩ | ⟨front, item, back, rfl, same, stopped⟩
  · exact absurd ⟨_, rfl⟩ (unlocated _)
  · exact .inl overflowing
  · exact absurd ⟨_, rfl⟩ (unlocated _)
  · rcases stopped with ⟨-, located⟩ | ⟨callable, fault, form, unread, failure_eq⟩
    · exact absurd located (unlocated _)
    · refine .inr ⟨front.length, callable, fault, firstUnread_of_append form unread,
        settledAt_of_append same, ?_⟩
      split at failure_eq
      · rename_i recursive
        exact .inl ⟨recursive, failure_eq⟩
      · rename_i plain
        subst failure_eq
        rcases Instr.blames_ofItem _ _ _ unread with located | unknown
        · exact absurd located (unlocated _)
        · exact .inr ⟨plain, rfl, unknown⟩

theorem overdeclared_of_overflow (failed : decode (.array items) = .error .overflow) :
    Overdeclared items := by
  have unlocated : ∀ index, ¬ Failure.overflow.IsAt index := by
    rintro index ⟨fault, located⟩
    cases located
  rcases stop_of_not_isAt failed unlocated with
    ⟨overdeclared, -⟩ | ⟨-, -, -, -, -, ⟨-, recursion⟩ | ⟨-, -, tag, operation | constType⟩⟩
  · exact overdeclared
  · cases recursion
  · cases operation
  · cases constType

/-- More parameters than there is room for cannot be declared, unless they are all there. -/
theorem decode_of_beyond {header : Json} {rest : List Json} {kind : CallableKind} {name : String}
    {declared : Nat} (header_item : HeaderItem header kind name declared)
    (beyond : Opening.capacity < declared) (fewer : rest.length < declared) :
    decode (.array (header :: rest)) = .error .overflow := by
  cases opened : Opening.ofItems kind name declared [] 1 rest with
  | error failure =>
      have unopened := openTuples_of_ofItems_error header_item opened
      rw [if_neg (Nat.not_le_of_lt beyond)] at unopened
      exact decode_of_openTuples_error unopened
  | ok opening =>
      obtain ⟨paramItems, params, surplus, bodyItems, rest_eq, parameters, count, -⟩ :=
        Opening.ofItems_eq_ok.mp opened
      have all_there := parameters.length_eq
      rw [rest_eq, List.length_append] at fewer
      rw [List.nil_append] at count
      omega

/-- A failure that names an item names the first one with which the items are no beginning of a
callable. One that names an unknown tag is that of the first instruction that cannot be read, with
no recursive call in front of it, and behind a recursive call the recursion is reported instead. In
each case what follows that item is of no account. Behind the last item of a callable, nothing but
the missing mark of the body is reported. The only other failure is that of a header that declares
more parameters than there is room for. -/
theorem failures_name_first_fault (items : List Json) :
    (∀ index fault, index < items.length →
      decode (.array items) = .error (.item index fault) →
        (∀ count, Beginning (items.take count) ↔ count ≤ index) ∧
        SettledAt items index (.item index fault)) ∧
    (∀ failure : Failure, failure.IsUnknownTag → decode (.array items) = .error failure →
      ∃ index callable, FirstUnread items index callable failure ∧ .recurse ∉ callable.body ∧
        SettledAt items index failure) ∧
    (decode (.array items) = .error .recursion →
      ∃ index callable fault, FirstUnread items index callable fault ∧ .recurse ∈ callable.body ∧
        SettledAt items index .recursion) ∧
    (∀ fault, items ≠ [] → decode (.array items) = .error (.item items.length fault) →
      fault = .missingBegin) ∧
    ∀ failure : Failure, decode (.array items) = .error failure →
      failure = .recursion ∨ failure.IsUnknownTag ∨
        (∃ index ≤ items.length, failure.IsAt index) ∨
        failure = .overflow ∧ Overdeclared items := by
  refine ⟨?_, ?_, ?_, ?_, ?_⟩
  · intro index fault inside failed
    rcases stop_of_isAt failed ⟨fault, rfl⟩ with
      ⟨rfl, -⟩ | ⟨rfl, -⟩ | ⟨front, item, back, rfl, rfl, beginning, same⟩
    · cases inside
    · exact absurd inside (Nat.lt_irrefl _)
    · exact ⟨beginning_take_iff beginning (same []), settledAt_of_append same⟩
  · intro failure unknown failed
    rcases stop_of_not_isAt failed unknown.not_isAt with
      ⟨-, rfl⟩ | ⟨index, callable, fault, first, settled, ⟨-, rfl⟩ | ⟨plain, rfl, -⟩⟩
    · obtain ⟨tag, operation | constType⟩ := unknown
      · cases operation
      · cases constType
    · exact absurd unknown Failure.not_isUnknownTag_recursion
    · exact ⟨index, callable, first, plain, settled⟩
  · intro failed
    rcases stop_of_not_isAt failed Failure.not_isAt_recursion with
      ⟨-, overflow⟩ | ⟨index, callable, fault, first, settled, ⟨recursive, -⟩ | ⟨-, -, unknown⟩⟩
    · cases overflow
    · exact ⟨index, callable, fault, first, recursive, settled⟩
    · exact absurd unknown Failure.not_isUnknownTag_recursion
  · intro fault nonempty failed
    rcases stop_of_isAt failed ⟨fault, rfl⟩ with
      ⟨items_eq, -⟩ | ⟨-, failure_eq⟩ | ⟨front, item, back, items_eq, length_eq, -⟩
    · exact absurd items_eq nonempty
    · exact (Failure.item.inj failure_eq).2
    · rw [items_eq, List.length_append, List.length_cons] at length_eq
      omega
  · intro failure failed
    by_cases located : ∃ index, failure.IsAt index
    · obtain ⟨index, located⟩ := located
      refine .inr (.inr (.inl ⟨index, ?_, located⟩))
      rcases stop_of_isAt failed located with
        ⟨-, rfl⟩ | ⟨rfl, -⟩ | ⟨front, item, back, rfl, rfl, -⟩
      · exact Nat.zero_le _
      · exact Nat.le_refl _
      · rw [List.length_append]
        exact Nat.le_add_right _ _
    · rcases stop_of_not_isAt failed (not_exists.mp located) with
        ⟨overdeclared, overflow⟩ | ⟨index, callable, fault, -, -, ⟨-, recursion⟩ | ⟨-, -, unknown⟩⟩
      · exact .inr (.inr (.inr ⟨overflow, overdeclared⟩))
      · exact .inl recursion
      · exact .inr (.inl unknown)

/-- A function with one parameter and the given items behind its first instruction. -/
def going (onwards : List Json) : List Json :=
  .array [.string "function", .string "f", .ofNat 1] :: .array [.string "param", .ofNat 3] ::
    .array [.string "begin"] :: .array [.string "var", .ofNat 4] :: onwards

/-- A jump without a label, a constant without a type, a recursive call in front of no instruction,
and a function that ends with its parameter. -/
theorem going_names_first_fault :
    decode (.array (going [.array [.string "jump"], .null])) = .error (.item 4 (.missing 1)) ∧
      (∀ count, Beginning ((going [.array [.string "jump"], .null]).take count) ↔ count ≤ 4) ∧
      decode (.array (going [.array [.string "jump"], .array [.string "recurse"]])) =
        .error (.item 4 (.missing 1)) ∧
      (∃ index callable, FirstUnread (going [.array [.string "const", .ofNat 5, .string "rope"]])
        index callable (.constType "rope") ∧ .recurse ∉ callable.body) ∧
      (∃ index callable fault, FirstUnread (going [.array [.string "recurse"], .null]) index
        callable fault ∧ .recurse ∈ callable.body) ∧
      decode (.array ((going []).take 2)) = .error (.item 2 .missingBegin) ∧
      ∀ fault, decode (.array ((going []).take 2)) = .error (.item 2 fault) →
        fault = .missingBegin := by
  have jump_failed : decode (.array (going [.array [.string "jump"], .null])) =
      .error (.item 4 (.missing 1)) := rfl
  obtain ⟨jump, -⟩ := failures_name_first_fault (going [.array [.string "jump"], .null])
  obtain ⟨begins, settled⟩ := jump 4 (.missing 1) (by decide) jump_failed
  obtain ⟨-, const, -⟩ := failures_name_first_fault
    (going [.array [.string "const", .ofNat 5, .string "rope"]])
  obtain ⟨index, callable, unread, plain, -⟩ := const _ ⟨"rope", .inr rfl⟩ rfl
  obtain ⟨-, -, recursion, -⟩ :=
    failures_name_first_fault (going [.array [.string "recurse"], .null])
  obtain ⟨place, recursive, fault, unread_there, called, -⟩ := recursion rfl
  obtain ⟨-, -, -, short, -⟩ := failures_name_first_fault ((going []).take 2)
  exact ⟨jump_failed, begins, settled _ rfl, ⟨index, callable, unread, plain⟩,
    ⟨place, recursive, fault, unread_there, called⟩, rfl,
    fun missing failed => short missing (List.cons_ne_nil _ _) failed⟩

end Callable

end ScriptLowering
