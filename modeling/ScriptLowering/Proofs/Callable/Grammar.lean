import ScriptLowering.Proofs.Callable.RoundTrip
import Mathlib.Data.List.Forall2
import Mathlib.Data.List.Induction
import Mathlib.Tactic.IntervalCases

/-!
# The grammar of callables

The tuple form of callables as a grammar: which fields each kind of item has, what these stand
for, and how items make up a callable. The central theorem is that reading accepts exactly the
values of the grammar, and reads them as what they stand for.
-/

namespace ScriptLowering

namespace Grammar

/-- A non-empty row of decimal digits and the number that it spells. -/
inductive SpellsNat : List Char → Nat → Prop where
  | digit {value : Nat} (small : value < 10) : SpellsNat [value.digitChar] value
  | append {front : List Char} {value last : Nat} (spelled : SpellsNat front value)
      (small : last < 10) : SpellsNat (front ++ [last.digitChar]) (10 * value + last)

/-- A field with an identifier: an unsigned integer or a text of digits, which may follow a plus
sign. -/
inductive IdField : Json → Nat → Prop where
  | number (id : Nat) : IdField (.ofNat id) id
  | digits {text : List Char} {id : Nat} (spelled : SpellsNat text id) :
      IdField (.string (String.ofList text)) id
  | signed {text : List Char} {id : Nat} (spelled : SpellsNat text id) :
      IdField (.string (String.ofList ('+' :: text))) id

/-- A field with a variable. The identifiers of variables end one short of 32 bits. -/
inductive VariableField : Json → Variable → Prop where
  | receiver : VariableField (.string "$this") .receiver
  | slot {field : Json} {id : Fin 4294967295} (spelled : IdField field id.val) :
      VariableField field (.slot id)

/-- A field with a label. -/
def LabelField (field : Json) (label : Label) : Prop :=
  IdField field label.id.toNat

/-- The tags of the types of constants. -/
inductive TypeTag : String → ConstType → Prop where
  | own (type : ConstType) : TypeTag type.tag type
  | int : TypeTag "int" .long

/-- A field with the payload of a constant, which is a scalar. -/
inductive PayloadField : Json → String → Prop where
  | null : PayloadField .null ""
  | yes : PayloadField (.bool true) "1"
  | no : PayloadField (.bool false) ""
  | number (value : JsonNumber) : PayloadField (.number value) value.render
  | text (value : String) : PayloadField (.string value) value

/-- The fields of an instruction. Every shape but that of a call admits surplus fields. -/
inductive InstrFields : List Json → Instr → Prop where
  | free {field : Json} {subject : Variable} (surplus : List Json)
      (subject_field : VariableField field subject) :
      InstrFields (.string "free" :: field :: surplus) (.free subject)
  | const {first second : Json} {result : Variable} {tag payload : String} {type : ConstType}
      (surplus : List Json) (result_field : VariableField first result)
      (type_tag : TypeTag tag type) (payload_field : PayloadField second payload) :
      InstrFields (.string "const" :: first :: .string tag :: second :: surplus)
        (.const result type payload)
  | declare {field : Json} {result : Variable} (surplus : List Json)
      (result_field : VariableField field result) :
      InstrFields (.string "var" :: field :: surplus) (.declare result)
  | assign {first second : Json} {source result : Variable} (surplus : List Json)
      (source_field : VariableField first source) (result_field : VariableField second result) :
      InstrFields (.string "assign" :: first :: second :: surplus) (.assign result source)
  | fetch {first second : Json} {object result : Variable} (property : String)
      (surplus : List Json) (object_field : VariableField first object)
      (result_field : VariableField second result) :
      InstrFields (.string "propertyfetch" :: .string property :: first :: second :: surplus)
        (.fetch result object property)
  | unary {first second : Json} {operand result : Variable} (op : UnaryOp)
      (surplus : List Json) (operand_field : VariableField first operand)
      (result_field : VariableField second result) :
      InstrFields (.string op.symbol :: first :: second :: surplus) (.unary op result operand)
  | binary {first second third : Json} {left right result : Variable} (op : BinaryOp)
      (surplus : List Json) (left_field : VariableField first left)
      (right_field : VariableField second right) (result_field : VariableField third result) :
      InstrFields (.string op.symbol :: first :: second :: third :: surplus)
        (.binary op result left right)
  | label {field : Json} {target : Label} (surplus : List Json)
      (target_field : LabelField field target) :
      InstrFields (.string "label" :: field :: surplus) (.label target)
  | jump {field : Json} {target : Label} (surplus : List Json)
      (target_field : LabelField field target) :
      InstrFields (.string "jump" :: field :: surplus) (.jump target)
  | jumpIfFalse {first second : Json} {condition : Variable} {target : Label}
      (surplus : List Json) (condition_field : VariableField first condition)
      (target_field : LabelField second target) :
      InstrFields (.string "jumpz" :: first :: second :: surplus) (.jumpIfFalse condition target)
  | leave : InstrFields [.string "return"] (.ret none)
  | leaveNull (surplus : List Json) :
      InstrFields (.string "return" :: .null :: surplus) (.ret none)
  | leaveWith {field : Json} {value : Variable} (surplus : List Json)
      (value_field : VariableField field value) :
      InstrFields (.string "return" :: field :: surplus) (.ret (some value))
  | call {passed : List Json} {last : Json} {arguments : List Variable} {result : Variable}
      (callee : String) (argument_fields : List.Forall₂ VariableField passed arguments)
      (result_field : VariableField last result) :
      InstrFields (.string "functioncall" :: .string callee :: (passed ++ [last]))
        (.call result callee arguments)
  | recurse (surplus : List Json) : InstrFields (.string "recurse" :: surplus) .recurse

/-- An item with an instruction. -/
inductive InstrItem : Json → Instr → Prop where
  | mk {fields : List Json} {instr : Instr} (shape : InstrFields fields instr) :
      InstrItem (.array fields) instr

/-- An item with a parameter. -/
inductive ParamItem : Json → Variable → Prop where
  | mk {field : Json} {subject : Variable} (surplus : List Json)
      (subject_field : VariableField field subject) :
      ParamItem (.array (.string "param" :: field :: surplus)) subject

/-- A callable in tuple form: a header that counts the parameters, the parameters, the mark
`begin` and the instructions. -/
inductive Form : Json → Callable → Prop where
  | mk (kind : CallableKind) (name : String) (headerSurplus beginSurplus : List Json)
      {paramItems bodyItems : List Json} {params : List Variable} {body : List Instr}
      (parameters : List.Forall₂ ParamItem paramItems params)
      (instructions : List.Forall₂ InstrItem bodyItems body) :
      Form
        (.array (.array (.string kind.tag :: .string name :: .ofNat params.length :: headerSurplus)
          :: (paramItems ++ .array (.string "begin" :: beginSurplus) :: bodyItems)))
        { kind, name, params, body }

theorem idField_iff {field : Json} {id : Nat} :
    IdField field id ↔
      field = .ofNat id ∨ ∃ sign digits, (sign = [] ∨ sign = ['+']) ∧
        SpellsNat digits id ∧ field = .string (String.ofList (sign ++ digits)) := by
  constructor
  · rintro (_ | spelled | spelled)
    · exact .inl rfl
    · exact .inr ⟨[], _, .inl rfl, spelled, rfl⟩
    · exact .inr ⟨['+'], _, .inr rfl, spelled, rfl⟩
  · rintro (rfl | ⟨sign, digits, rfl | rfl, spelled, rfl⟩)
    · exact .number id
    · exact .digits spelled
    · exact .signed spelled

end Grammar

open Grammar

namespace Numeral

theorem isDigit_iff {letter : Char} :
    letter.isDigit ↔ ∃ value < 10, letter = Nat.digitChar value := by
  constructor
  · intro digit
    have bounds : 48 ≤ letter.toNat ∧ letter.toNat ≤ 57 := by
      simpa [Char.isDigit, UInt32.le_iff_toNat_le] using digit
    refine ⟨letter.toNat - 48, by omega, ?_⟩
    have letters : ∀ code : Fin 58, 48 ≤ code.val →
        Char.ofNat code.val = Nat.digitChar (code.val - 48) := by decide
    rw [← letters ⟨letter.toNat, by omega⟩ bounds.1, Char.ofNat_toNat]
  · rintro ⟨value, small, rfl⟩
    simpa [Nat.isDigit_digitChar] using small

theorem digitValue_digitChar {value : Nat} (small : value < 10) :
    digitValue value.digitChar = value := by
  interval_cases value <;> rfl

@[simp]
theorem natOfDigits_append (front : List Char) (last : Char) :
    natOfDigits (front ++ [last]) = 10 * natOfDigits front + digitValue last := by
  simp [natOfDigits]

theorem spellsNat_of_digits {digits : List Char} (nonempty : digits ≠ [])
    (all_digits : digits.all Char.isDigit) : SpellsNat digits (natOfDigits digits) := by
  induction digits using List.reverseRecOn with
  | nil => exact absurd rfl nonempty
  | append_singleton front last induction =>
      rw [List.all_append, Bool.and_eq_true] at all_digits
      have last_digit : last.isDigit := by simpa using all_digits.2
      obtain ⟨value, small, rfl⟩ := isDigit_iff.mp last_digit
      rw [natOfDigits_append, digitValue_digitChar small]
      cases front with
      | nil => simpa [natOfDigits] using SpellsNat.digit small
      | cons head tail => exact .append (induction (List.cons_ne_nil _ _) all_digits.1) small

theorem spellsNat_iff {digits : List Char} {value : Nat} :
    SpellsNat digits value ↔
      digits ≠ [] ∧ digits.all Char.isDigit ∧ natOfDigits digits = value := by
  constructor
  · intro spelled
    induction spelled with
    | digit small =>
        refine ⟨List.cons_ne_nil _ _, ?_, ?_⟩
        · simpa [Nat.isDigit_digitChar] using small
        · simp [natOfDigits, digitValue_digitChar small]
    | append front small induction =>
        obtain ⟨-, digits, value_eq⟩ := induction
        refine ⟨by simp, ?_, ?_⟩
        · simpa [Nat.isDigit_digitChar, small] using digits
        · simp [value_eq, digitValue_digitChar small]
  · rintro ⟨nonempty, digits, rfl⟩
    exact spellsNat_of_digits nonempty digits

end Numeral

namespace Variable

theorem ofWord_eq_slot {word : UInt32} {id : Fin 4294967295} :
    ofWord word = .slot id ↔ word.toNat = id.val := by
  unfold ofWord
  split
  · rw [slot.injEq, Fin.ext_iff]
  · rename_i reserved
    have := id.isLt
    simp only [reduceCtorEq, false_iff]
    omega

theorem exists_word (id : Fin 4294967295) : ∃ word : UInt32, word.toNat = id.val := by
  have small : id.val < UInt32.size := by
    have := id.isLt
    simp only [UInt32.size]
    omega
  exact ⟨UInt32.ofNat id.val, UInt32.toNat_ofNat_of_lt' small⟩

end Variable

theorem Tuple.ofItem_eq_ok {index : Nat} {item : Json} {tuple : Tuple} :
    ofItem index item = .ok tuple ↔
      tuple.fields ≠ [] ∧ item = .array tuple.fields ∧ index = tuple.index := by
  constructor
  · intro split
    unfold ofItem at split
    split at split
    · cases split
    · rename_i nonempty
      obtain rfl := Except.ok.inj split
      exact ⟨nonempty, rfl, rfl⟩
    · cases split
  · rintro ⟨nonempty, rfl, rfl⟩
    obtain ⟨index, fields⟩ := tuple
    cases fields with
    | nil => exact absurd rfl nonempty
    | cons field fields => rfl

theorem Json.eq_ofNat_of_nat? {field : Json} {value : Nat} (counted : field.nat? = some value) :
    field = .ofNat value := by
  unfold nat? at counted
  split at counted
  · obtain rfl := Option.some.inj counted
    rfl
  · cases counted

namespace Tuple

theorem wordOfNat?_eq_some {value : Nat} {word : UInt32} :
    wordOfNat? value = some word ↔ value = word.toNat := by
  unfold wordOfNat?
  constructor
  · intro found
    split at found
    · rename_i small
      obtain rfl := Option.some.inj found
      rw [UInt32.toNat_ofNat_of_lt' small]
    · cases found
  · rintro rfl
    have small : word.toNat < 4294967296 := word.toNat_lt
    simp [small]

theorem wordOfText?_eq_some {text : List Char} {word : UInt32} :
    wordOfText? text = some word ↔
      SpellsNat text word.toNat ∨ ∃ digits, text = '+' :: digits ∧ SpellsNat digits word.toNat := by
  -- A plus sign is no digit, so that at most one of the two spellings fits.
  have plain : ∀ digits : List Char,
      (if digits.isEmpty || !digits.all Char.isDigit then none
        else wordOfNat? (Numeral.natOfDigits digits)) = some word ↔
      SpellsNat digits word.toNat := by
    intro digits
    rw [Numeral.spellsNat_iff]
    split <;> rename_i excluded
    · simp only [Bool.or_eq_true, List.isEmpty_iff, Bool.not_eq_true'] at excluded
      simp only [reduceCtorEq, false_iff]
      rintro ⟨nonempty, digits, -⟩
      simp_all
    · simp only [Bool.or_eq_true, List.isEmpty_iff, Bool.not_eq_true', not_or,
        Bool.not_eq_false] at excluded
      rw [wordOfNat?_eq_some]
      simp [excluded]
  unfold wordOfText?
  split
  · rename_i digits
    have unsigned : ¬ SpellsNat ('+' :: digits) word.toNat := by
      rw [Numeral.spellsNat_iff]
      simp
    rw [plain]
    simp [unsigned]
  · rename_i unsigned
    rw [plain]
    exact ⟨.inl, fun spelled => spelled.elim id fun ⟨digits, signed, _⟩ =>
      absurd signed (unsigned digits)⟩

theorem word?_eq_some {field : Json} {word : UInt32} :
    word? field = some word ↔ IdField field word.toNat := by
  constructor
  · intro found
    cases field with
    | number value =>
        cases value with
        | float value => cases found
        | integer value =>
            cases value with
            | negSucc value => cases found
            | ofNat value =>
                obtain rfl := wordOfNat?_eq_some.mp found
                exact .number _
    | string value =>
        rw [← String.ofList_toList (s := value)]
        rcases wordOfText?_eq_some.mp found with spelled | ⟨digits, signed, spelled⟩
        · exact .digits spelled
        · rw [signed]
          exact .signed spelled
    | null | bool _ | array _ | object _ => cases found
  · intro spelled
    generalize id_eq : word.toNat = id at spelled
    cases spelled with
    | number id => exact wordOfNat?_eq_some.mpr id_eq.symm
    | digits spelled =>
        rw [word?, String.toList_ofList, wordOfText?_eq_some, id_eq]
        exact .inl spelled
    | signed spelled =>
        rw [word?, String.toList_ofList, wordOfText?_eq_some, id_eq]
        exact .inr ⟨_, rfl, spelled⟩

theorem not_idField_this (id : Nat) : ¬ IdField (.string "$this") id := by
  intro spelled
  have letters : ∀ text : List Char, String.ofList text = "$this" →
      text = ['$', 't', 'h', 'i', 's'] := fun text equal => by
    rw [← String.toList_ofList (l := text), equal]
    rfl
  generalize field_eq : Json.string "$this" = field at spelled
  cases spelled with
  | number id => cases field_eq
  | digits spelled =>
      rw [letters _ (Json.string.inj field_eq).symm, Numeral.spellsNat_iff] at spelled
      exact absurd spelled.2.1 (by decide)
  | signed spelled => cases letters _ (Json.string.inj field_eq).symm

variable {tuple : Tuple} {position : Nat}

theorem field_eq_ok_iff {field : Json} :
    tuple.field position = .ok field ↔ tuple.fields[position]? = some field := by
  unfold Tuple.field
  cases tuple.fields[position]? <;> simp

theorem text_eq_ok_iff {value : String} :
    tuple.text position = .ok value ↔ tuple.fields[position]? = some (.string value) := by
  rw [text, Except.bind_eq_ok]
  constructor
  · rintro ⟨field, standing, read⟩
    rw [field_eq_ok_iff] at standing
    cases field <;> cases read
    exact standing
  · intro standing
    exact ⟨_, field_eq_ok_iff.mpr standing, rfl⟩

theorem count_eq_ok_iff {value : Nat} :
    tuple.count position = .ok value ↔ tuple.fields[position]? = some (.ofNat value) := by
  rw [count, Except.bind_eq_ok]
  constructor
  · rintro ⟨field, standing, read⟩
    rw [field_eq_ok_iff] at standing
    cases counted : field.nat? with
    | none => simp [counted] at read
    | some number =>
        rw [counted] at read
        obtain rfl : number = value := Except.ok.inj read
        rw [standing, Json.eq_ofNat_of_nat? counted]
  · intro standing
    exact ⟨_, field_eq_ok_iff.mpr standing, rfl⟩

theorem word_eq_ok_iff {word : UInt32} :
    tuple.word position = .ok word ↔
      ∃ field, tuple.fields[position]? = some field ∧ IdField field word.toNat := by
  rw [Tuple.word, Except.bind_eq_ok]
  apply exists_congr
  intro field
  rw [field_eq_ok_iff, ← word?_eq_some]
  cases word? field <;> simp

/-- A reader of fields gives what the field at the position denotes, and nothing else. -/
def Reads {α : Type} (read : Tuple → Nat → Except Failure α) (denotes : Json → α → Prop) : Prop :=
  ∀ {tuple : Tuple} {position : Nat} {value : α}, read tuple position = .ok value ↔
    ∃ field, tuple.fields[position]? = some field ∧ denotes field value

theorem reads_labelAt : Reads labelAt LabelField := by
  intro tuple position label
  rw [labelAt, Except.bind_eq_ok]
  constructor
  · rintro ⟨word, read, ⟨⟩⟩
    exact word_eq_ok_iff.mp read
  · intro standing
    exact ⟨label.id, word_eq_ok_iff.mpr standing, rfl⟩

theorem reads_variableAt : Reads variableAt VariableField := by
  intro tuple position subject
  rw [variableAt, Except.bind_eq_ok]
  apply exists_congr
  intro field
  rw [field_eq_ok_iff]
  apply and_congr_right
  intro standing
  split
  · constructor
    · rintro ⟨⟩
      exact .receiver
    · rintro (_ | spelled)
      · rfl
      · exact absurd spelled (not_idField_this _)
  · rename_i other
    rw [Except.bind_eq_ok]
    constructor
    · rintro ⟨word, read, named⟩
      obtain ⟨_, same, spelled⟩ := word_eq_ok_iff.mp read
      obtain rfl := Option.some.inj (standing.symm.trans same)
      cases numbered : Variable.ofWord word with
      | receiver =>
          rw [numbered] at named
          cases named
      | slot id =>
          rw [numbered] at named
          obtain rfl := Except.ok.inj named
          rw [Variable.ofWord_eq_slot.mp numbered] at spelled
          exact .slot spelled
    · rintro (_ | @⟨_, id, spelled⟩)
      · exact absurd rfl other
      · obtain ⟨word, word_eq⟩ := Variable.exists_word id
        rw [← word_eq] at spelled
        refine ⟨word, word_eq_ok_iff.mpr ⟨field, standing, spelled⟩, ?_⟩
        rw [Variable.ofWord_eq_slot.mpr word_eq]

theorem payload?_eq_some {field : Json} {text : String} :
    payload? field = some text ↔ PayloadField field text := by
  constructor
  · intro read
    cases field with
    | bool value => cases value <;> cases read <;> constructor
    | null | number _ | string _ => cases read; constructor
    | array _ | object _ => cases read
  · intro scalar
    cases scalar <;> rfl

theorem reads_payload : Reads payload PayloadField := by
  intro tuple position text
  rw [payload, Except.bind_eq_ok]
  apply exists_congr
  intro field
  rw [field_eq_ok_iff, ← payload?_eq_some]
  cases payload? field <;> simp

section Continuation

variable {α : Type} {result : α}

theorem bind_text_eq_ok {next : String → Except Failure α} :
    (tuple.text position >>= next) = .ok result ↔
      ∃ value, tuple.fields[position]? = some (.string value) ∧ next value = .ok result := by
  simp only [Except.bind_eq_ok, text_eq_ok_iff]

theorem Reads.bind_eq_ok {β : Type} {read : Tuple → Nat → Except Failure β}
    {denotes : Json → β → Prop} (reads : Reads read denotes) {next : β → Except Failure α} :
    (read tuple position >>= next) = .ok result ↔
      ∃ field value, tuple.fields[position]? = some field ∧ denotes field value ∧
        next value = .ok result := by
  rw [Except.bind_eq_ok]
  constructor
  · rintro ⟨value, was_read, read_on⟩
    obtain ⟨field, standing, denoted⟩ := reads.mp was_read
    exact ⟨field, value, standing, denoted, read_on⟩
  · rintro ⟨field, value, standing, denoted, read_on⟩
    exact ⟨value, reads.mpr ⟨field, standing, denoted⟩, read_on⟩

end Continuation

end Tuple

/-! ## Instructions -/

/-- Whatever is found by a symbol has it, so it is found by its symbol if at all. -/
theorem find?_symbol_eq_some {α : Type} {all : List α} {symbolOf : α → String}
    (complete : ∀ op, all.find? (symbolOf · == symbolOf op) = some op) {symbol : String} {op : α} :
    all.find? (symbolOf · == symbol) = some op ↔ symbol = symbolOf op := by
  constructor
  · intro found
    have same : symbolOf op == symbol := by simpa using List.find?_some found
    exact (eq_of_beq same).symm
  · rintro rfl
    exact complete op

theorem UnaryOp.ofSymbol?_eq_some {symbol : String} {op : UnaryOp} :
    ofSymbol? symbol = some op ↔ symbol = op.symbol :=
  find?_symbol_eq_some UnaryOp.ofSymbol?_symbol

theorem BinaryOp.ofSymbol?_eq_some {symbol : String} {op : BinaryOp} :
    ofSymbol? symbol = some op ↔ symbol = op.symbol :=
  find?_symbol_eq_some BinaryOp.ofSymbol?_symbol

theorem ConstType.ofTag?_eq_some {tag : String} {type : ConstType} :
    ofTag? tag = some type ↔ TypeTag tag type := by
  constructor
  · intro found
    unfold ofTag? at found
    split at found <;> cases found
    · exact .own .bool
    · exact .own .long
    · exact .int
    · exact .own .numeric
    · exact .own .double
    · exact .own .string
  · rintro (_ | _)
    · exact type.ofTag?_tag
    · rfl

namespace Instr

open ScriptLowering.Tuple

variable {tuple : Tuple} {instr : Instr}

theorem drop_eq_cons {fields : List Json} {position : Nat} {field : Json}
    (standing : fields[position]? = some field) :
    fields.drop position = field :: fields.drop (position + 1) := by
  obtain ⟨inside, rfl⟩ := List.getElem?_eq_some_iff.mp standing
  exact List.drop_eq_getElem_cons inside

/-- The fields of a row stand one after the other from a position on. -/
def StandFrom (fields : List Json) : Nat → List Json → Prop
  | _, [] => True
  | position, field :: row => fields[position]? = some field ∧ StandFrom fields (position + 1) row

theorem drop_eq_append {fields : List Json} {position : Nat} (row : List Json)
    (standing : StandFrom fields position row) :
    fields.drop position = row ++ fields.drop (position + row.length) := by
  induction row generalizing position with
  | nil => rfl
  | cons field row induction =>
      rw [drop_eq_cons standing.1, induction standing.2, List.length_cons, List.cons_append,
        Nat.add_assoc, Nat.add_comm 1]

/-- The fields of a tuple that have been read stand in front of the surplus. -/
theorem fields_eq {fields : List Json} (row : List Json) (standing : StandFrom fields 0 row) :
    fields = row ++ fields.drop row.length := by
  rw [← Nat.zero_add row.length]
  exact drop_eq_append row standing

theorem instrFields_of_const (tagged : tuple.fields[0]? = some (.string "const"))
    (read : ofConstTuple tuple = .ok instr) : InstrFields tuple.fields instr := by
  obtain ⟨first, result, first_at, result_field, read⟩ := reads_variableAt.bind_eq_ok.mp read
  obtain ⟨tag, tag_at, read⟩ := bind_text_eq_ok.mp read
  cases typed : ConstType.ofTag? tag with
  | none =>
      rw [typed] at read
      cases read
  | some type =>
      rw [typed] at read
      obtain ⟨third, payload, third_at, payload_field, read⟩ := reads_payload.bind_eq_ok.mp read
      obtain rfl := Except.ok.inj read
      rw [fields_eq [_, _, _, _] ⟨tagged, first_at, tag_at, third_at, trivial⟩]
      exact .const _ result_field (ConstType.ofTag?_eq_some.mp typed) payload_field

theorem instrFields_of_operator {symbol : String}
    (tagged : tuple.fields[0]? = some (.string symbol))
    (read : ofOperatorTuple tuple symbol = .ok instr) : InstrFields tuple.fields instr := by
  unfold ofOperatorTuple at read
  split at read
  · rename_i op found
    obtain rfl := UnaryOp.ofSymbol?_eq_some.mp found
    obtain ⟨first, operand, first_at, operand_field, read⟩ := reads_variableAt.bind_eq_ok.mp read
    obtain ⟨second, result, second_at, result_field, read⟩ := reads_variableAt.bind_eq_ok.mp read
    obtain rfl := Except.ok.inj read
    rw [fields_eq [_, _, _] ⟨tagged, first_at, second_at, trivial⟩]
    exact .unary op _ operand_field result_field
  · rename_i op _ found
    obtain rfl := BinaryOp.ofSymbol?_eq_some.mp found
    obtain ⟨first, left, first_at, left_field, read⟩ := reads_variableAt.bind_eq_ok.mp read
    obtain ⟨second, right, second_at, right_field, read⟩ := reads_variableAt.bind_eq_ok.mp read
    obtain ⟨third, result, third_at, result_field, read⟩ := reads_variableAt.bind_eq_ok.mp read
    obtain rfl := Except.ok.inj read
    rw [fields_eq [_, _, _, _] ⟨tagged, first_at, second_at, third_at, trivial⟩]
    exact .binary op _ left_field right_field result_field
  · cases read

theorem instrFields_of_return (tagged : tuple.fields[0]? = some (.string "return"))
    (read : ofReturnTuple tuple = .ok instr) : InstrFields tuple.fields instr := by
  unfold ofReturnTuple at read
  split at read
  · rename_i absent
    obtain rfl := Except.ok.inj read
    have nothing_behind : tuple.fields.drop 1 = [] :=
      List.drop_eq_nil_of_le (List.getElem?_eq_none_iff.mp absent)
    rw [fields_eq [_] ⟨tagged, trivial⟩, List.length_singleton, nothing_behind]
    exact .leave
  · rename_i standing
    obtain rfl := Except.ok.inj read
    rw [fields_eq [_, _] ⟨tagged, standing, trivial⟩]
    exact .leaveNull _
  · obtain ⟨first, value, standing, value_field, read⟩ := reads_variableAt.bind_eq_ok.mp read
    obtain rfl := Except.ok.inj read
    rw [fields_eq [_, _] ⟨tagged, standing, trivial⟩]
    exact .leaveWith _ value_field

theorem mapM_variableAt_eq_ok {start count : Nat} {subjects : List Variable} :
    (List.range' start count).mapM tuple.variableAt = .ok subjects ↔
      subjects.length = count ∧
        List.Forall₂ VariableField ((tuple.fields.drop start).take count) subjects := by
  induction count generalizing start subjects with
  | zero => cases subjects <;> simp [pure, Except.pure]
  | succ count induction =>
      rw [List.range'_succ, List.mapM_cons, Except.bind_eq_ok]
      constructor
      · rintro ⟨subject, read, read_rest⟩
        obtain ⟨rest, rest_read, all_eq⟩ := Except.bind_eq_ok.mp read_rest
        obtain rfl := Except.ok.inj all_eq
        obtain ⟨length_eq, rest_fields⟩ := induction.mp rest_read
        obtain ⟨field, standing, subject_field⟩ := reads_variableAt.mp read
        rw [drop_eq_cons standing, List.take_succ_cons]
        exact ⟨by rw [List.length_cons, length_eq], .cons subject_field rest_fields⟩
      · rintro ⟨length_eq, fields⟩
        obtain ⟨subject, rest, rfl⟩ := List.exists_cons_of_length_eq_add_one length_eq
        cases dropped : tuple.fields.drop start with
        | nil =>
            rw [dropped] at fields
            cases fields
        | cons field behind =>
            have standing : tuple.fields[start]? = some field := by
              rw [← Nat.add_zero start, ← List.getElem?_drop, dropped]
              rfl
            rw [drop_eq_cons standing, List.take_succ_cons] at fields
            obtain ⟨subject_field, rest_fields⟩ := List.forall₂_cons.mp fields
            have rest_read := induction.mpr ⟨Nat.succ.inj length_eq, rest_fields⟩
            refine ⟨subject, reads_variableAt.mpr ⟨field, standing, subject_field⟩, ?_⟩
            exact Except.bind_eq_ok.mpr ⟨rest, rest_read, rfl⟩

theorem instrFields_of_call (tagged : tuple.fields[0]? = some (.string "functioncall"))
    (read : ofCallTuple tuple = .ok instr) : InstrFields tuple.fields instr := by
  simp only [ofCallTuple] at read
  split at read
  · cases read
  · rename_i long
    obtain ⟨arguments, arguments_read, read⟩ := Except.bind_eq_ok.mp read
    obtain ⟨callee, callee_at, read⟩ := bind_text_eq_ok.mp read
    obtain ⟨last, result, last_at, result_field, read⟩ := reads_variableAt.bind_eq_ok.mp read
    obtain rfl := Except.ok.inj read
    obtain ⟨-, argument_fields⟩ := mapM_variableAt_eq_ok.mp arguments_read
    -- What stands behind the callee is the arguments and one last field.
    have behind : tuple.fields.drop 2 =
        (tuple.fields.drop 2).take (tuple.fields.length - 1 - 2) ++ [last] := by
      have end_eq : tuple.fields.drop (tuple.fields.length - 1) = [last] := by
        rw [drop_eq_cons last_at, List.drop_eq_nil_of_le (by omega)]
      conv_lhs =>
        rw [← List.take_append_drop (tuple.fields.length - 1 - 2) (tuple.fields.drop 2),
          List.drop_drop, show 2 + (tuple.fields.length - 1 - 2) = tuple.fields.length - 1 by omega,
          end_eq]
    have front : tuple.fields = .string "functioncall" :: .string callee :: tuple.fields.drop 2 :=
      fields_eq [_, _] ⟨tagged, callee_at, trivial⟩
    rw [front, behind]
    exact .call callee argument_fields result_field

/-- Whatever can be read as an instruction has the fields of that instruction. -/
theorem instrFields_of_ofTuple (read : ofTuple tuple = .ok instr) :
    InstrFields tuple.fields instr := by
  obtain ⟨tag, tagged, read⟩ := bind_text_eq_ok.mp read
  split at read
  · obtain ⟨field, subject, standing, subject_field, read⟩ := reads_variableAt.bind_eq_ok.mp read
    obtain rfl := Except.ok.inj read
    rw [fields_eq [_, _] ⟨tagged, standing, trivial⟩]
    exact .free _ subject_field
  · exact instrFields_of_const tagged read
  · obtain ⟨field, result, standing, result_field, read⟩ := reads_variableAt.bind_eq_ok.mp read
    obtain rfl := Except.ok.inj read
    rw [fields_eq [_, _] ⟨tagged, standing, trivial⟩]
    exact .declare _ result_field
  · obtain ⟨first, source, first_at, source_field, read⟩ := reads_variableAt.bind_eq_ok.mp read
    obtain ⟨second, result, second_at, result_field, read⟩ := reads_variableAt.bind_eq_ok.mp read
    obtain rfl := Except.ok.inj read
    rw [fields_eq [_, _, _] ⟨tagged, first_at, second_at, trivial⟩]
    exact .assign _ source_field result_field
  · obtain ⟨property, property_at, read⟩ := bind_text_eq_ok.mp read
    obtain ⟨first, object, first_at, object_field, read⟩ := reads_variableAt.bind_eq_ok.mp read
    obtain ⟨second, result, second_at, result_field, read⟩ := reads_variableAt.bind_eq_ok.mp read
    obtain rfl := Except.ok.inj read
    rw [fields_eq [_, _, _, _] ⟨tagged, property_at, first_at, second_at, trivial⟩]
    exact .fetch property _ object_field result_field
  · obtain ⟨field, target, standing, target_field, read⟩ := reads_labelAt.bind_eq_ok.mp read
    obtain rfl := Except.ok.inj read
    rw [fields_eq [_, _] ⟨tagged, standing, trivial⟩]
    exact .label _ target_field
  · obtain ⟨field, target, standing, target_field, read⟩ := reads_labelAt.bind_eq_ok.mp read
    obtain rfl := Except.ok.inj read
    rw [fields_eq [_, _] ⟨tagged, standing, trivial⟩]
    exact .jump _ target_field
  · obtain ⟨first, condition, first_at, condition_field, read⟩ :=
      reads_variableAt.bind_eq_ok.mp read
    obtain ⟨second, target, second_at, target_field, read⟩ := reads_labelAt.bind_eq_ok.mp read
    obtain rfl := Except.ok.inj read
    rw [fields_eq [_, _, _] ⟨tagged, first_at, second_at, trivial⟩]
    exact .jumpIfFalse _ condition_field target_field
  · exact instrFields_of_return tagged read
  · obtain rfl := Except.ok.inj read
    rw [fields_eq [_] ⟨tagged, trivial⟩]
    exact .recurse _
  · exact instrFields_of_call tagged read
  · exact instrFields_of_operator tagged read

theorem ofReturnTuple_of_variableField {field : Json} {value : Variable} (index : Nat)
    (surplus : List Json) (value_field : VariableField field value) :
    ofReturnTuple ⟨index, .string "return" :: field :: surplus⟩ = .ok (.ret (some value)) := by
  have read : variableAt ⟨index, .string "return" :: field :: surplus⟩ 1 = .ok value :=
    reads_variableAt.mpr ⟨field, rfl, value_field⟩
  have unlike_null : field ≠ .null := by
    rintro rfl
    rcases value_field with _ | ⟨⟨⟩⟩
  unfold ofReturnTuple
  split
  · rename_i absent
    cases absent
  · rename_i standing
    exact absurd (Option.some.inj standing) unlike_null
  · exact Except.bind_eq_ok.mpr ⟨value, read, rfl⟩

theorem ofCallTuple_of_variableFields {passed : List Json} {last : Json}
    {arguments : List Variable} {result : Variable} (index : Nat) (callee : String)
    (argument_fields : List.Forall₂ VariableField passed arguments)
    (result_field : VariableField last result) :
    ofCallTuple ⟨index, .string "functioncall" :: .string callee :: (passed ++ [last])⟩ =
      .ok (.call result callee arguments) := by
  generalize fields_eq : .string "functioncall" :: .string callee :: (passed ++ [last]) = fields
  have length_eq : fields.length - 1 = passed.length + 2 := by simp [← fields_eq]
  have callee_at : fields[1]? = some (.string callee) := by simp [← fields_eq]
  have last_at : fields[passed.length + 2]? = some last := by simp [← fields_eq]
  have between : (fields.drop 2).take passed.length = passed := by simp [← fields_eq]
  rw [ofCallTuple, length_eq, if_neg (by omega), Nat.add_sub_cancel]
  refine Except.bind_eq_ok.mpr ⟨arguments, ?_, ?_⟩
  · rw [mapM_variableAt_eq_ok, between]
    exact ⟨argument_fields.length_eq.symm, argument_fields⟩
  · refine bind_text_eq_ok.mpr ⟨callee, callee_at, ?_⟩
    exact reads_variableAt.bind_eq_ok.mpr ⟨last, result, last_at, result_field, rfl⟩

/-- The fields of an instruction can be read as that instruction. -/
theorem ofTuple_of_instrFields {fields : List Json} (index : Nat)
    (shape : InstrFields fields instr) : ofTuple ⟨index, fields⟩ = .ok instr := by
  cases shape with
  | free surplus subject_field =>
      refine bind_text_eq_ok.mpr ⟨"free", rfl, ?_⟩
      exact reads_variableAt.bind_eq_ok.mpr ⟨_, _, rfl, subject_field, rfl⟩
  | const surplus result_field type_tag payload_field =>
      refine bind_text_eq_ok.mpr ⟨"const", rfl, ?_⟩
      refine reads_variableAt.bind_eq_ok.mpr ⟨_, _, rfl, result_field, ?_⟩
      refine bind_text_eq_ok.mpr ⟨_, rfl, ?_⟩
      rw [ConstType.ofTag?_eq_some.mpr type_tag]
      exact reads_payload.bind_eq_ok.mpr ⟨_, _, rfl, payload_field, rfl⟩
  | declare surplus result_field =>
      refine bind_text_eq_ok.mpr ⟨"var", rfl, ?_⟩
      exact reads_variableAt.bind_eq_ok.mpr ⟨_, _, rfl, result_field, rfl⟩
  | assign surplus source_field result_field =>
      refine bind_text_eq_ok.mpr ⟨"assign", rfl, ?_⟩
      refine reads_variableAt.bind_eq_ok.mpr ⟨_, _, rfl, source_field, ?_⟩
      exact reads_variableAt.bind_eq_ok.mpr ⟨_, _, rfl, result_field, rfl⟩
  | fetch property surplus object_field result_field =>
      refine bind_text_eq_ok.mpr ⟨"propertyfetch", rfl, ?_⟩
      refine bind_text_eq_ok.mpr ⟨property, rfl, ?_⟩
      refine reads_variableAt.bind_eq_ok.mpr ⟨_, _, rfl, object_field, ?_⟩
      exact reads_variableAt.bind_eq_ok.mpr ⟨_, _, rfl, result_field, rfl⟩
  -- The symbol of an operator is none of the other tags, which only its value shows.
  | @unary first second operand result op surplus operand_field result_field =>
      have operated : ofOperatorTuple ⟨index, .string op.symbol :: first :: second :: surplus⟩
          op.symbol = .ok (.unary op result operand) := by
        rw [ofOperatorTuple, op.ofSymbol?_symbol]
        refine reads_variableAt.bind_eq_ok.mpr ⟨_, _, rfl, operand_field, ?_⟩
        exact reads_variableAt.bind_eq_ok.mpr ⟨_, _, rfl, result_field, rfl⟩
      cases op <;> exact operated
  | @binary first second third left right result op surplus left_field right_field result_field =>
      have operated :
          ofOperatorTuple ⟨index, .string op.symbol :: first :: second :: third :: surplus⟩
            op.symbol = .ok (.binary op result left right) := by
        rw [ofOperatorTuple, UnaryOp.ofSymbol?_binary, op.ofSymbol?_symbol]
        refine reads_variableAt.bind_eq_ok.mpr ⟨_, _, rfl, left_field, ?_⟩
        refine reads_variableAt.bind_eq_ok.mpr ⟨_, _, rfl, right_field, ?_⟩
        exact reads_variableAt.bind_eq_ok.mpr ⟨_, _, rfl, result_field, rfl⟩
      cases op <;> exact operated
  | label surplus target_field =>
      refine bind_text_eq_ok.mpr ⟨"label", rfl, ?_⟩
      exact reads_labelAt.bind_eq_ok.mpr ⟨_, _, rfl, target_field, rfl⟩
  | jump surplus target_field =>
      refine bind_text_eq_ok.mpr ⟨"jump", rfl, ?_⟩
      exact reads_labelAt.bind_eq_ok.mpr ⟨_, _, rfl, target_field, rfl⟩
  | jumpIfFalse surplus condition_field target_field =>
      refine bind_text_eq_ok.mpr ⟨"jumpz", rfl, ?_⟩
      refine reads_variableAt.bind_eq_ok.mpr ⟨_, _, rfl, condition_field, ?_⟩
      exact reads_labelAt.bind_eq_ok.mpr ⟨_, _, rfl, target_field, rfl⟩
  | leave | leaveNull surplus | recurse surplus => rfl
  | leaveWith surplus value_field =>
      exact ofReturnTuple_of_variableField index surplus value_field
  | call callee argument_fields result_field =>
      exact ofCallTuple_of_variableFields index callee argument_fields result_field

theorem ofItem_eq_ok {index : Nat} {item : Json} :
    ofItem index item = .ok instr ↔ InstrItem item instr := by
  constructor
  · intro read
    obtain ⟨tuple, split, read⟩ := Except.bind_eq_ok.mp read
    obtain ⟨-, item_eq, -⟩ := Tuple.ofItem_eq_ok.mp split
    rw [item_eq]
    exact .mk (instrFields_of_ofTuple read)
  · rintro @⟨fields, _, shape⟩
    have nonempty : fields ≠ [] := by
      rintro rfl
      cases shape
    exact Except.bind_eq_ok.mpr
      ⟨_, Tuple.ofItem_eq_ok.mpr ⟨nonempty, rfl, rfl⟩, ofTuple_of_instrFields index shape⟩

/-- The items of a body are read as the instructions that they are, one by one. -/
theorem ofItems_eq_map_ok {start : Nat} {items : List Json} {body : List Instr} :
    ofItems start items = body.map .ok ↔ List.Forall₂ InstrItem items body := by
  induction items generalizing start body with
  | nil => cases body <;> simp [ofItems]
  | cons item items induction =>
      cases body with
      | nil => simp [ofItems]
      | cons instr body =>
          have unfolded : ofItems start (item :: items) =
              ofItem start item :: ofItems (start + 1) items := by
            simp [ofItems]
          rw [unfolded, List.map_cons, List.cons.injEq, induction, ofItem_eq_ok,
            List.forall₂_cons]

end Instr

theorem CallableKind.ofTag?_eq_some {tag : String} {kind : CallableKind} :
    ofTag? tag = some kind ↔ tag = kind.tag := by
  constructor
  · intro found
    unfold ofTag? at found
    split at found <;> cases found <;> rfl
  · rintro rfl
    exact kind.ofTag?_tag

namespace Opening

variable {kind : CallableKind} {name : String} {declared index : Nat} {before : List Variable}
  {items : List Json} {opening : Opening}

/-- Reading the parameters takes as many of them as there are in front of the mark, and leaves the
items behind it. -/
theorem ofItems_eq_ok :
    ofItems kind name declared before index items = .ok opening ↔
      ∃ paramItems params surplus bodyItems,
        items = paramItems ++ .array (.string "begin" :: surplus) :: bodyItems ∧
        List.Forall₂ ParamItem paramItems params ∧
        declared = (before ++ params).length ∧
        opening = ⟨⟨kind, name, before ++ params⟩, index + params.length + 1, bodyItems⟩ := by
  constructor
  · intro read
    induction items generalizing before index with
    | nil => cases read
    | cons item rest induction =>
        obtain ⟨tuple, split, read⟩ := Except.bind_eq_ok.mp read
        obtain ⟨-, item_eq, -⟩ := Tuple.ofItem_eq_ok.mp split
        obtain ⟨tag, tagged, read⟩ := Tuple.bind_text_eq_ok.mp read
        split at read
        · split at read
          · rename_i complete
            have fields_eq := Instr.fields_eq [_] ⟨tagged, trivial⟩
            refine ⟨[], [], _, rest, by rw [item_eq, fields_eq]; rfl, .nil, ?_, ?_⟩
            · rw [List.append_nil, complete]
            · rw [List.append_nil, ← Except.ok.inj read]
              rfl
          · cases read
        · obtain ⟨field, param, standing, param_field, read⟩ :=
            Tuple.reads_variableAt.bind_eq_ok.mp read
          obtain ⟨paramItems, params, surplus, bodyItems, rest_eq, parameters, count, opening_eq⟩ :=
            induction read
          have fields_eq := Instr.fields_eq [_, _] ⟨tagged, standing, trivial⟩
          refine ⟨item :: paramItems, param :: params, surplus, bodyItems, ?_, ?_, ?_, ?_⟩
          · rw [rest_eq]
            rfl
          · rw [item_eq, fields_eq]
            exact .cons (.mk _ param_field) parameters
          · rw [count, ← List.append_cons]
          · rw [opening_eq, ← List.append_cons, List.length_cons]
            congr 1
            omega
        · cases read
  · rintro ⟨paramItems, params, surplus, bodyItems, rfl, parameters, rfl, rfl⟩
    induction parameters generalizing before index with
    | nil =>
        refine Except.bind_eq_ok.mpr ⟨_, rfl, Tuple.bind_text_eq_ok.mpr ⟨"begin", rfl, ?_⟩⟩
        rw [List.append_nil]
        exact if_pos rfl
    | @cons item param paramItems params param_item parameters induction =>
        obtain ⟨surplus', param_field⟩ := param_item
        have later := @induction (index + 1) (before ++ [param])
        rw [← List.append_cons, Nat.add_right_comm index 1] at later
        refine Except.bind_eq_ok.mpr ⟨_, rfl, Tuple.bind_text_eq_ok.mpr ⟨"param", rfl, ?_⟩⟩
        exact Tuple.reads_variableAt.bind_eq_ok.mpr ⟨_, _, rfl, param_field, later⟩

end Opening

namespace Callable

theorem split_eq_ok {value : Json} {header : Tuple} {items : List Json} :
    split value = .ok (header, items) ↔
      ∃ item, value = .array (item :: items) ∧ Tuple.ofItem 0 item = .ok header := by
  constructor
  · intro parts
    unfold split at parts
    split at parts
    · obtain ⟨tuple, read, pair_eq⟩ := Except.bind_eq_ok.mp parts
      cases pair_eq
      exact ⟨_, rfl, read⟩
    · cases parts
    · cases parts
  · rintro ⟨item, rfl, read⟩
    exact Except.bind_eq_ok.mpr ⟨header, read, rfl⟩

theorem openTuples_eq_ok {value : Json} {opening : Opening} :
    openTuples value = .ok opening ↔
      ∃ kind name headerSurplus paramItems params beginSurplus bodyItems,
        value = .array
          (.array (.string (CallableKind.tag kind) :: .string name :: .ofNat params.length ::
              headerSurplus) ::
            (paramItems ++ .array (.string "begin" :: beginSurplus) :: bodyItems)) ∧
        List.Forall₂ ParamItem paramItems params ∧
        opening = ⟨⟨kind, name, params⟩, params.length + 2, bodyItems⟩ := by
  constructor
  · intro opened
    obtain ⟨⟨header, items⟩, parts, opened⟩ := Except.bind_eq_ok.mp opened
    obtain ⟨item, value_eq, split⟩ := split_eq_ok.mp parts
    obtain ⟨-, item_eq, -⟩ := Tuple.ofItem_eq_ok.mp split
    obtain ⟨tag, tagged, opened⟩ := Tuple.bind_text_eq_ok.mp opened
    cases known : CallableKind.ofTag? tag with
    | none =>
        rw [known] at opened
        cases opened
    | some kind =>
        rw [known] at opened
        obtain rfl := CallableKind.ofTag?_eq_some.mp known
        obtain ⟨name, name_at, opened⟩ := Tuple.bind_text_eq_ok.mp opened
        obtain ⟨declared, count_read, opened⟩ := Except.bind_eq_ok.mp opened
        obtain ⟨paramItems, params, surplus, bodyItems, items_eq, parameters, count, opening_eq⟩ :=
          Opening.ofItems_eq_ok.mp (Opening.afterHeader_eq_ok.mp opened)
        have count_at := Tuple.count_eq_ok_iff.mp count_read
        rw [count, List.nil_append] at count_at
        have fields_eq : header.fields =
            .string kind.tag :: .string name :: .ofNat params.length :: header.fields.drop 3 :=
          Instr.fields_eq [_, _, _] ⟨tagged, name_at, count_at, trivial⟩
        refine ⟨kind, name, header.fields.drop 3, paramItems, params, surplus, bodyItems, ?_,
          parameters, ?_⟩
        · rw [value_eq, item_eq, items_eq, ← fields_eq]
        · rw [opening_eq, List.nil_append, Nat.add_comm 1]
  · rintro ⟨kind, name, headerSurplus, paramItems, params, beginSurplus, bodyItems, rfl, parameters,
      rfl⟩
    refine Except.bind_eq_ok.mpr ⟨_, rfl, Tuple.bind_text_eq_ok.mpr ⟨kind.tag, rfl, ?_⟩⟩
    rw [kind.ofTag?_tag]
    refine Tuple.bind_text_eq_ok.mpr ⟨name, rfl, ?_⟩
    refine Except.bind_eq_ok.mpr ⟨_, Tuple.count_eq_ok_iff.mpr rfl, ?_⟩
    rw [Opening.afterHeader_eq_ok]
    refine Opening.ofItems_eq_ok.mpr ⟨_, _, _, _, rfl, parameters, rfl, ?_⟩
    rw [List.nil_append, Nat.add_comm 1]

theorem decode_eq_ok {value : Json} {callable : Callable} :
    decode value = .ok callable ↔ Form value callable := by
  constructor
  · intro decoded
    obtain ⟨opening, opened, decoded⟩ := Except.bind_eq_ok.mp decoded
    obtain ⟨kind, name, headerSurplus, paramItems, params, beginSurplus, bodyItems, rfl, parameters,
      rfl⟩ := openTuples_eq_ok.mp opened
    obtain ⟨header_eq, instrs_eq⟩ := Opening.decode_eq_ok.mp decoded
    obtain ⟨header, body⟩ := callable
    obtain rfl : _ = header := header_eq
    exact .mk kind name headerSurplus beginSurplus parameters
      (Instr.ofItems_eq_map_ok.mp instrs_eq)
  · rintro ⟨kind, name, headerSurplus, beginSurplus, parameters, instructions⟩
    refine Except.bind_eq_ok.mpr ⟨_, openTuples_eq_ok.mpr
      ⟨kind, name, headerSurplus, _, _, beginSurplus, _, rfl, parameters, rfl⟩, ?_⟩
    exact Opening.decode_eq_ok.mpr ⟨rfl, Instr.ofItems_eq_map_ok.mpr instructions⟩

/-- Reading accepts exactly the values of the grammar and reads each of them as the callable that
it stands for. In the grammar, only the word `$this` is the receiver, and a numbered variable or
label is its number, as an unsigned integer or as a text of digits behind an optional plus sign,
where the greatest number of 32 bits is that of no variable. -/
theorem decode_iff_grammar :
    (∀ value callable, decode value = .ok callable ↔ Form value callable) ∧
    (∀ field, VariableField field .receiver ↔ field = .string "$this") ∧
    (∀ field id, (∃ inRange, VariableField field (.slot ⟨id, inRange⟩)) ↔
      id < 4294967295 ∧
        (field = .ofNat id ∨ ∃ sign digits, (sign = [] ∨ sign = ['+']) ∧
          SpellsNat digits id ∧ field = .string (String.ofList (sign ++ digits)))) ∧
    ∀ field label, LabelField field label ↔
      field = .ofNat label.id.toNat ∨ ∃ sign digits, (sign = [] ∨ sign = ['+']) ∧
        SpellsNat digits label.id.toNat ∧ field = .string (String.ofList (sign ++ digits)) := by
  refine ⟨fun value callable => decode_eq_ok, fun field => ?_, fun field id => ?_,
    fun field label => idField_iff⟩
  · constructor
    · rintro ⟨⟩
      rfl
    · rintro rfl
      exact .receiver
  · rw [← idField_iff]
    constructor
    · rintro ⟨inRange, ⟨⟩⟩
      exact ⟨inRange, ‹_›⟩
    · rintro ⟨inRange, spelled⟩
      exact ⟨inRange, .slot spelled⟩

end Callable

end ScriptLowering
