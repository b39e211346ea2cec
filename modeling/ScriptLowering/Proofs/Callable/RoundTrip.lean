import ScriptLowering.Callable.Encoder
import ScriptLowering.Proofs.Callable.Reading

/-!
# Reading undoes writing

The tuple form that a callable is written in is read back as the same callable. Among the many
tuple forms of one callable, the written one is therefore canonical.
-/

namespace ScriptLowering

namespace Tuple

variable {tuple : Tuple} {position : Nat}

theorem text_eq_ok {value : String} (standing : tuple.fields[position]? = some (.string value)) :
    tuple.text position = .ok value := by
  rw [text, field, standing]
  rfl

theorem word_eq_ok {value : UInt32}
    (standing : tuple.fields[position]? = some (.ofNat value.toNat)) :
    tuple.word position = .ok value := by
  have small : value.toNat < 4294967296 := value.toNat_lt
  have word : word? (.ofNat value.toNat) = some value := by
    simp [Json.ofNat, word?, wordOfNat?, small]
  rw [Tuple.word, field, standing]
  simp [bind, Except.bind, word]

theorem labelAt_eq_ok {label : Label} (standing : tuple.fields[position]? = some label.encode) :
    tuple.labelAt position = .ok label := by
  rw [labelAt, word_eq_ok standing]
  rfl

theorem variableAt_eq_ok {subject : Variable}
    (standing : tuple.fields[position]? = some subject.encode) :
    tuple.variableAt position = .ok subject := by
  cases subject with
  | receiver =>
      rw [variableAt, field, standing]
      rfl
  | slot id =>
      have id_eq : (UInt32.ofNat id.val).toNat = id.val := UInt32.toNat_ofNat_of_lt' (by
        have := id.isLt
        simp only [UInt32.size]
        omega)
      have word : tuple.word position = .ok (UInt32.ofNat id.val) := by
        apply word_eq_ok
        rw [id_eq, standing]
        rfl
      have slot : Variable.ofWord (UInt32.ofNat id.val) = .slot id := by
        rw [Variable.ofWord, dif_pos (by omega)]
        simp only [id_eq]
      simp only [variableAt, word, field, standing, Variable.encode, Json.ofNat, bind, Except.bind,
        slot]

/-- Fields in a row that are those of variables are read as these. -/
theorem mapM_variableAt {front back : List Json} {subjects : List Variable}
    (fields_eq : tuple.fields = front ++ subjects.map Variable.encode ++ back) :
    (List.range' front.length subjects.length).mapM tuple.variableAt = .ok subjects := by
  induction subjects generalizing front with
  | nil => rfl
  | cons subject subjects induction =>
      have standing : tuple.fields[front.length]? = some subject.encode := by simp [fields_eq]
      -- The first field moves to the fields in front, so that the rest starts one place later.
      have shifted : tuple.fields =
          (front ++ [subject.encode]) ++ subjects.map Variable.encode ++ back := by
        simp [fields_eq]
      have later := induction shifted
      rw [List.length_append, List.length_singleton] at later
      rw [List.length_cons, List.range'_succ, List.mapM_cons, variableAt_eq_ok standing, later]
      rfl

end Tuple

@[simp]
theorem UnaryOp.ofSymbol?_symbol (op : UnaryOp) : ofSymbol? op.symbol = some op := by
  cases op <;> decide

@[simp]
theorem BinaryOp.ofSymbol?_symbol (op : BinaryOp) : ofSymbol? op.symbol = some op := by
  cases op <;> decide

/-- No symbol is that of a unary and of a binary operator. -/
@[simp]
theorem UnaryOp.ofSymbol?_binary (op : BinaryOp) : ofSymbol? op.symbol = none := by
  cases op <;> decide

@[simp]
theorem ConstType.ofTag?_tag (type : ConstType) : ofTag? type.tag = some type := by
  cases type <;> rfl

@[simp]
theorem CallableKind.ofTag?_tag (kind : CallableKind) : ofTag? kind.tag = some kind := by
  cases kind <;> rfl

namespace Instr

variable (index : Nat)

theorem ofConstTuple_encode (result : Variable) (type : ConstType) (payload : String) :
    ofConstTuple ⟨index, [.string "const", result.encode, .string type.tag, .string payload]⟩ =
      .ok (.const result type payload) := by
  refine Except.bind_eq_ok.mpr ⟨result, Tuple.variableAt_eq_ok rfl, ?_⟩
  refine Except.bind_eq_ok.mpr ⟨type.tag, rfl, ?_⟩
  rw [ConstType.ofTag?_tag]
  rfl

theorem ofOperatorTuple_unary (op : UnaryOp) (result operand : Variable) :
    ofOperatorTuple ⟨index, [.string op.symbol, operand.encode, result.encode]⟩ op.symbol =
      .ok (.unary op result operand) := by
  rw [ofOperatorTuple, UnaryOp.ofSymbol?_symbol]
  refine Except.bind_eq_ok.mpr ⟨operand, Tuple.variableAt_eq_ok rfl, ?_⟩
  exact Except.bind_eq_ok.mpr ⟨result, Tuple.variableAt_eq_ok rfl, rfl⟩

theorem ofOperatorTuple_binary (op : BinaryOp) (result left right : Variable) :
    ofOperatorTuple ⟨index, [.string op.symbol, left.encode, right.encode, result.encode]⟩
      op.symbol = .ok (.binary op result left right) := by
  rw [ofOperatorTuple, UnaryOp.ofSymbol?_binary, BinaryOp.ofSymbol?_symbol]
  refine Except.bind_eq_ok.mpr ⟨left, Tuple.variableAt_eq_ok rfl, ?_⟩
  refine Except.bind_eq_ok.mpr ⟨right, Tuple.variableAt_eq_ok rfl, ?_⟩
  exact Except.bind_eq_ok.mpr ⟨result, Tuple.variableAt_eq_ok rfl, rfl⟩

theorem ofReturnTuple_encode (value : Variable) :
    ofReturnTuple ⟨index, [.string "return", value.encode]⟩ = .ok (.ret (some value)) := by
  have read : Tuple.variableAt ⟨index, [.string "return", value.encode]⟩ 1 = .ok value :=
    Tuple.variableAt_eq_ok rfl
  cases value <;> exact Except.bind_eq_ok.mpr ⟨_, read, rfl⟩

/-- Whatever the number of arguments, the result stands in the last field. -/
theorem ofCallTuple_encode (result : Variable) (callee : String) (arguments : List Variable) :
    ofCallTuple ⟨index, [.string "functioncall", .string callee]
        ++ arguments.map Variable.encode ++ [result.encode]⟩ =
      .ok (.call result callee arguments) := by
  generalize fields_eq : [.string "functioncall", .string callee]
    ++ arguments.map Variable.encode ++ [result.encode] = fields
  have length_eq : fields.length - 1 = arguments.length + 2 := by simp [← fields_eq]
  have last : fields[arguments.length + 2]? = some result.encode := by simp [← fields_eq]
  have named : fields[1]? = some (.string callee) := by simp [← fields_eq]
  have split : (Tuple.mk index fields).fields = [.string "functioncall", .string callee]
    ++ arguments.map Variable.encode ++ [result.encode] := fields_eq.symm
  have passed := Tuple.mapM_variableAt split
  rw [ofCallTuple, length_eq, if_neg (by omega), Nat.add_sub_cancel]
  refine Except.bind_eq_ok.mpr ⟨arguments, passed, ?_⟩
  refine Except.bind_eq_ok.mpr ⟨callee, Tuple.text_eq_ok named, ?_⟩
  exact Except.bind_eq_ok.mpr ⟨result, Tuple.variableAt_eq_ok last, rfl⟩

@[simp]
theorem ofItem_encode (instr : Instr) : ofItem index instr.encode = .ok instr := by
  cases instr with
  | const result type payload => exact ofConstTuple_encode index result type payload
  | declare subject | free subject =>
      refine Except.bind_eq_ok.mpr ⟨_, rfl, Except.bind_eq_ok.mpr ⟨_, rfl, ?_⟩⟩
      exact Except.bind_eq_ok.mpr ⟨subject, Tuple.variableAt_eq_ok rfl, rfl⟩
  | assign result source =>
      refine Except.bind_eq_ok.mpr ⟨_, rfl, Except.bind_eq_ok.mpr ⟨_, rfl, ?_⟩⟩
      refine Except.bind_eq_ok.mpr ⟨source, Tuple.variableAt_eq_ok rfl, ?_⟩
      exact Except.bind_eq_ok.mpr ⟨result, Tuple.variableAt_eq_ok rfl, rfl⟩
  | fetch result object property =>
      refine Except.bind_eq_ok.mpr ⟨_, rfl, Except.bind_eq_ok.mpr ⟨_, rfl, ?_⟩⟩
      refine Except.bind_eq_ok.mpr ⟨property, rfl, ?_⟩
      refine Except.bind_eq_ok.mpr ⟨object, Tuple.variableAt_eq_ok rfl, ?_⟩
      exact Except.bind_eq_ok.mpr ⟨result, Tuple.variableAt_eq_ok rfl, rfl⟩
  -- The symbol of an operator is none of the other tags, which only its value shows.
  | unary op result operand =>
      have operated := ofOperatorTuple_unary index op result operand
      cases op <;> exact operated
  | binary op result left right =>
      have operated := ofOperatorTuple_binary index op result left right
      cases op <;> exact operated
  | label target | jump target =>
      refine Except.bind_eq_ok.mpr ⟨_, rfl, Except.bind_eq_ok.mpr ⟨_, rfl, ?_⟩⟩
      exact Except.bind_eq_ok.mpr ⟨target, Tuple.labelAt_eq_ok rfl, rfl⟩
  | jumpIfFalse condition target =>
      refine Except.bind_eq_ok.mpr ⟨_, rfl, Except.bind_eq_ok.mpr ⟨_, rfl, ?_⟩⟩
      refine Except.bind_eq_ok.mpr ⟨condition, Tuple.variableAt_eq_ok rfl, ?_⟩
      exact Except.bind_eq_ok.mpr ⟨target, Tuple.labelAt_eq_ok rfl, rfl⟩
  | ret value =>
      cases value with
      | none => rfl
      | some value => exact ofReturnTuple_encode index value
  | call result callee arguments => exact ofCallTuple_encode index result callee arguments
  | recurse => rfl

@[simp]
theorem ofItems_cons (start : Nat) (item : Json) (items : List Json) :
    ofItems start (item :: items) = ofItem start item :: ofItems (start + 1) items := by
  simp [ofItems]

@[simp]
theorem ofItems_encode (start : Nat) (body : List Instr) :
    ofItems start (body.map encode) = body.map .ok := by
  induction body generalizing start with
  | nil => rfl
  | cons instr body induction => simp [induction]

end Instr

/-- The parameters are read up to the mark in front of the body. -/
theorem Opening.ofItems_encode (kind : CallableKind) (name : String) (before params : List Variable)
    (index : Nat) (items : List Json) :
    ofItems kind name (before ++ params).length before index
        (params.map (fun param => .array [.string "param", param.encode])
          ++ .array [.string "begin"] :: items) =
      .ok ⟨⟨kind, name, before ++ params⟩, index + params.length + 1, items⟩ := by
  induction params generalizing before index with
  | nil =>
      rw [List.append_nil]
      refine Except.bind_eq_ok.mpr ⟨_, rfl, Except.bind_eq_ok.mpr ⟨"begin", rfl, ?_⟩⟩
      exact if_pos rfl
  | cons param params induction =>
      have later := induction (before ++ [param]) (index + 1)
      rw [← List.append_cons, Nat.add_right_comm index 1] at later
      refine Except.bind_eq_ok.mpr ⟨_, rfl, Except.bind_eq_ok.mpr ⟨"param", rfl, ?_⟩⟩
      exact Except.bind_eq_ok.mpr ⟨param, Tuple.variableAt_eq_ok rfl, later⟩

namespace Callable

/-- The header is read with the instructions still to come. -/
@[simp]
theorem openTuples_encode (callable : Callable) :
    openTuples callable.encode =
      .ok ⟨callable.toHeader, callable.params.length + 2, callable.body.map Instr.encode⟩ := by
  refine Except.bind_eq_ok.mpr ⟨_, rfl, Except.bind_eq_ok.mpr ⟨callable.kind.tag, rfl, ?_⟩⟩
  rw [CallableKind.ofTag?_tag]
  refine Except.bind_eq_ok.mpr ⟨callable.name, rfl, Except.bind_eq_ok.mpr ⟨_, rfl, ?_⟩⟩
  have opened := Opening.ofItems_encode callable.kind callable.name [] callable.params 1
    (callable.body.map Instr.encode)
  rw [List.nil_append, Nat.add_comm 1] at opened
  exact Opening.afterHeader_eq_ok.mpr opened

@[simp]
theorem decode_encode (callable : Callable) : decode callable.encode = .ok callable := by
  refine Except.bind_eq_ok.mpr ⟨_, openTuples_encode callable, ?_⟩
  exact Opening.decode_eq_ok.mpr ⟨rfl, Instr.ofItems_encode _ callable.body⟩

theorem encode_injective : Function.Injective encode := by
  intro left right equal
  have same : decode left.encode = decode right.encode := congrArg decode equal
  simpa using same

/-- The canonical form of a callable in tuple form: what it stands for, written anew. -/
def canonical (value : Json) : Except Failure Json :=
  return (← decode value).encode

theorem canonical_of_decode {value : Json} {callable : Callable}
    (decoded : decode value = .ok callable) : canonical value = .ok callable.encode :=
  Except.bind_eq_ok.mpr ⟨callable, decoded, rfl⟩

/-- Reading undoes writing, so no two callables are written alike. A value that can be read has
its canonical form in common with exactly the values that stand for the same callable, among them
the canonical form itself. -/
theorem encode_is_canonical :
    (∀ callable, decode callable.encode = .ok callable) ∧
    Function.Injective encode ∧
    ∀ value callable, decode value = .ok callable →
      canonical value = .ok callable.encode ∧
      decode callable.encode = decode value ∧
      canonical callable.encode = canonical value ∧
      ∀ other, canonical other = canonical value ↔ decode other = decode value := by
  refine ⟨decode_encode, encode_injective, fun value callable decoded => ?_⟩
  have canonical_eq := canonical_of_decode decoded
  refine ⟨canonical_eq, by rw [decode_encode, decoded], ?_, fun other => ?_⟩
  · rw [canonical_eq, canonical_of_decode (decode_encode callable)]
  · constructor
    · intro same
      rw [canonical_eq] at same
      obtain ⟨second, otherDecoded, written⟩ := Except.bind_eq_ok.mp same
      rw [otherDecoded, decoded, encode_injective (Except.ok.inj written)]
    · intro same
      rw [canonical, canonical, same]

/-- A callable with an identifier in a text, a surplus field, another word for the type of a
constant, a payload that is no string and an explicit null. -/
def loose : Json :=
  .array [.array [.string "method", .string "m", .ofNat 1, .null],
    .array [.string "param", .string "+4294967294"], .array [.string "begin"],
    .array [.string "const", .ofNat 0, .string "int", .bool true],
    .array [.string "label", .string "4294967295"], .array [.string "return", .null]]

/-- What that callable is. -/
def tight : Callable where
  kind := .method
  name := "m"
  params := [.ofWord 4294967294]
  body := [.const (.ofWord 0) .long "1", .label ⟨4294967295⟩, .ret none]

theorem loose_has_canonical_form :
    decode loose = .ok tight ∧ canonical loose = .ok tight.encode ∧
      decode tight.encode = decode loose := by
  have decoded : decode loose = .ok tight := by decide +kernel
  obtain ⟨written, read, -⟩ := encode_is_canonical.2.2 loose tight decoded
  exact ⟨decoded, written, read⟩

end Callable

end ScriptLowering
