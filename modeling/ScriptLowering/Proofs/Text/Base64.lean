import ScriptLowering.Text.Base64
import Mathlib.Data.List.Basic

/-!
# What base64 spells

A spelling is made of the symbols of six-bit values and of padding. The six-bit values are kept
apart here as `Base64.sextets`, so that packing them is a matter of arithmetic and the search for
faults one of symbols and lengths. The central theorem is that decoding gives back what has been
encoded.
-/

namespace ScriptLowering

namespace Base64

/-- The six-bit values of a byte sequence. The last one is filled up with zeros. -/
def sextets : List UInt8 → List Nat
  | [] => []
  | [a] => [a.toNat / 4, a.toNat % 4 * 16]
  | [a, b] => [a.toNat / 4, a.toNat % 4 * 16 + b.toNat / 16, b.toNat % 16 * 4]
  | a :: b :: c :: rest =>
      a.toNat / 4 :: (a.toNat % 4 * 16 + b.toNat / 16) :: (b.toNat % 16 * 4 + c.toNat / 64) ::
        c.toNat % 64 :: sextets rest

/-- The number of padding symbols behind the six-bit values of a byte sequence. -/
def padding (bytes : List UInt8) : Nat :=
  (3 - bytes.length % 3) % 3

theorem lt_of_mem_sextets {bytes : List UInt8} {value : Nat} (listed : value ∈ sextets bytes) :
    value < 64 := by
  have bounded : ∀ byte : UInt8, byte.toNat < 256 := UInt8.toNat_lt
  induction bytes using sextets.induct with
  | case1 => cases listed
  | case2 a =>
      have := bounded a
      simp only [sextets, List.mem_cons, List.not_mem_nil, or_false] at listed
      omega
  | case3 a b =>
      have := bounded a
      have := bounded b
      simp only [sextets, List.mem_cons, List.not_mem_nil, or_false] at listed
      omega
  | case4 a b c rest induction =>
      have := bounded a
      have := bounded b
      have := bounded c
      simp only [sextets, List.mem_cons] at listed
      rcases listed with rfl | rfl | rfl | rfl | later
      · omega
      · omega
      · omega
      · omega
      · exact induction later

theorem length_sextets (bytes : List UInt8) :
    ((sextets bytes).length + padding bytes) % 4 = 0 := by
  induction bytes using sextets.induct with
  | case1 => rfl
  | case2 a => simp [sextets, padding]
  | case3 a b => simp [sextets, padding]
  | case4 a b c rest induction =>
      simp only [padding] at induction
      simp only [sextets, padding, List.length_cons]
      omega

/-- Packing the six-bit values of a byte sequence gives it back. -/
@[simp]
theorem pack_sextets (bytes : List UInt8) : pack (sextets bytes) = bytes := by
  have byte_eq : ∀ (byte : UInt8) (value : Nat), value = byte.toNat → UInt8.ofNat value = byte := by
    rintro byte value rfl
    exact UInt8.ofNat_toNat
  have bounded : ∀ byte : UInt8, byte.toNat < 256 := UInt8.toNat_lt
  induction bytes using sextets.induct with
  | case1 => rfl
  | case2 a =>
      rw [sextets, pack, byte_eq a _ (by omega)]
  | case3 a b =>
      have := bounded b
      rw [sextets, pack, byte_eq a _ (by omega), byte_eq b _ (by omega)]
  | case4 a b c rest induction =>
      have := bounded b
      have := bounded c
      rw [sextets, pack, induction, byte_eq a _ (by omega), byte_eq b _ (by omega),
        byte_eq c _ (by omega)]

theorem encode_eq (bytes : List UInt8) :
    encode bytes = (sextets bytes).map symbol ++ List.replicate (padding bytes) pad := by
  induction bytes using sextets.induct with
  | case1 | case2 _ | case3 _ _ => rfl
  | case4 a b c rest induction =>
      have same : padding (a :: b :: c :: rest) = padding rest := by
        simp only [padding, List.length_cons]
        omega
      rw [encode, induction, sextets, same]
      rfl

theorem value?_symbol {value : Nat} (fits : value < 64) : value? (symbol value) = some value := by
  have all : ∀ value < 64, value? (symbol value) = some value := by decide
  exact all value fits

@[simp]
theorem value?_pad : value? pad = none := by
  decide

theorem ne_pad_of_isSome {byte : UInt8} (isSymbol : (value? byte).isSome) : byte ≠ pad := by
  rintro rfl
  rw [value?_pad] at isSymbol
  cases isSymbol

theorem isSome_of_mem {bytes : List UInt8} {byte : UInt8}
    (listed : byte ∈ (sextets bytes).map symbol) : (value? byte).isSome := by
  obtain ⟨value, member, rfl⟩ := List.mem_map.mp listed
  rw [value?_symbol (lt_of_mem_sextets member)]
  rfl

/-- The values of symbols are found again, whatever padding follows them. -/
theorem filterMap_value?_symbols {values : List Nat} (fits : ∀ value ∈ values, value < 64)
    (pads : Nat) :
    (values.map symbol ++ List.replicate pads pad).filterMap value? = values := by
  induction values with
  | nil => simp [List.filterMap_replicate_of_none]
  | cons value rest induction =>
      obtain ⟨first, rest_fit⟩ := List.forall_mem_cons.mp fits
      rw [List.map_cons, List.cons_append, List.filterMap_cons, value?_symbol first,
        induction rest_fit]

theorem of_mem_encode {bytes : List UInt8} {byte : UInt8} (listed : byte ∈ encode bytes) :
    byte = pad ∨ ∃ value < 64, byte = symbol value := by
  rw [encode_eq, List.mem_append] at listed
  rcases listed with spelled | padded
  · obtain ⟨value, member, rfl⟩ := List.mem_map.mp spelled
    exact .inr ⟨value, lt_of_mem_sextets member, rfl⟩
  · exact .inl (List.eq_of_mem_replicate padded)

variable {symbols : List UInt8}

theorem symbolFault?_of_symbols (all : ∀ byte ∈ symbols, (value? byte).isSome) (offset : Nat) :
    symbolFault? offset symbols = none := by
  induction symbols generalizing offset with
  | nil => rfl
  | cons byte rest induction =>
      rw [symbolFault?, if_pos (all byte List.mem_cons_self)]
      exact induction (fun later listed => all later (List.mem_cons_of_mem _ listed)) _

/-- Symbols and then padding that fills the last group have no fault. -/
theorem closingFault?_of_symbols (all : ∀ byte ∈ symbols, (value? byte).isSome) {pads : Nat}
    (few : pads ≤ 2) {offset : Nat} (whole : (offset + symbols.length + pads) % 4 = 0) :
    closingFault? offset none (symbols ++ List.replicate pads pad) = none := by
  induction symbols generalizing offset with
  | nil =>
      -- At most two padding symbols fill the group, so they stand in its second half.
      rw [List.length_nil] at whole
      obtain rfl | rfl | rfl : pads = 0 ∨ pads = 1 ∨ pads = 2 := by omega
      · rfl
      · have late : ¬ offset % 4 < 2 := by omega
        simp [closingFault?, late]
      · have late : ¬ offset % 4 < 2 := by omega
        have later : ¬ (offset + 1) % 4 < 2 := by omega
        simp [closingFault?, late, later]
  | cons byte rest induction =>
      have first := all byte List.mem_cons_self
      rw [List.cons_append, closingFault?, if_neg (ne_pad_of_isSome first)]
      simp only [first, if_true]
      apply induction fun later listed => all later (List.mem_cons_of_mem _ listed)
      rw [List.length_cons] at whole
      omega

theorem takeWhile_ne_pad (all : ∀ byte ∈ symbols, (value? byte).isSome) (pads : Nat) :
    (symbols ++ List.replicate pads pad).takeWhile (· != pad) = symbols := by
  have symbols_kept : ∀ byte ∈ symbols, (byte != pad) = true := by
    intro byte listed
    simpa using ne_pad_of_isSome (all byte listed)
  rw [List.takeWhile_append_of_pos symbols_kept]
  cases pads <;> simp [List.replicate_succ]

/-- Symbols in front of others do not change whether the last one is in order. -/
theorem lastSymbolFault?_group (a b c d : UInt8) (fine : lastSymbolFault? symbols = none) :
    lastSymbolFault? (a :: b :: c :: d :: symbols) = none := by
  rcases List.eq_nil_or_concat' symbols with rfl | ⟨front, last, rfl⟩
  · simp [lastSymbolFault?, Nat.mod_one]
  · have same : (a :: b :: c :: d :: (front ++ [last])).length % 4 =
        (front ++ [last]).length % 4 := by
      simp only [List.length_cons]
      omega
    have last_eq : (a :: b :: c :: d :: (front ++ [last])).getLast? = some last := by
      rw [← List.cons_append, ← List.cons_append, ← List.cons_append, ← List.cons_append,
        List.getLast?_append]
      rfl
    rw [lastSymbolFault?, List.getLast?_concat] at fine
    rw [lastSymbolFault?, last_eq, same]
    simp only [ite_eq_left_iff, reduceCtorEq, imp_false, not_not] at fine ⊢
    exact fine

@[simp]
theorem lastSymbolFault?_sextets (bytes : List UInt8) :
    lastSymbolFault? ((sextets bytes).map symbol) = none := by
  induction bytes using sextets.induct with
  | case1 => rfl
  | case2 a =>
      have last : value? (symbol (a.toNat % 4 * 16)) = some _ := value?_symbol (by omega)
      simp [sextets, lastSymbolFault?, last]
  | case3 a b =>
      have last : value? (symbol (b.toNat % 16 * 4)) = some _ := value?_symbol (by omega)
      simp [sextets, lastSymbolFault?, last]
  | case4 a b c rest induction => exact lastSymbolFault?_group _ _ _ _ induction

/-- What has been encoded is canonical. -/
@[simp]
theorem fault?_encode (bytes : List UInt8) : fault? (encode bytes) = none := by
  have all : ∀ byte ∈ (sextets bytes).map symbol, (value? byte).isSome := fun _ => isSome_of_mem
  have few : padding bytes ≤ 2 := by
    rw [padding]
    omega
  have whole : (((sextets bytes).map symbol).length + padding bytes) % 4 = 0 := by
    rw [List.length_map]
    exact length_sextets bytes
  have last_fine := lastSymbolFault?_sextets bytes
  rw [encode_eq]
  generalize (sextets bytes).map symbol = symbols at all whole last_fine
  generalize padding bytes = pads at few whole
  have length_eq : (symbols ++ List.replicate pads pad).length = symbols.length + pads := by
    rw [List.length_append, List.length_replicate]
  -- The stretch in which padding is not allowed ends in front of the last group.
  have closing_le : (symbols.length + pads - 1) / 8 * 8 ≤ symbols.length := by omega
  rw [fault?, length_eq, if_neg (by omega), if_pos whole]
  dsimp only
  rw [List.take_append_of_le_length closing_le, List.drop_append_of_le_length closing_le,
    symbolFault?_of_symbols fun byte listed => all byte (List.mem_of_mem_take listed),
    closingFault?_of_symbols (fun byte listed => all byte (List.mem_of_mem_drop listed)) few
      (by rw [List.length_drop]; omega),
    takeWhile_ne_pad all, last_fine]
  rfl

/-- Decoding gives back what has been encoded. -/
@[simp]
theorem decode_encode (bytes : List UInt8) : decode (encode bytes) = .ok bytes := by
  have values_eq : (encode bytes).filterMap value? = sextets bytes := by
    rw [encode_eq, filterMap_value?_symbols fun _ => lt_of_mem_sextets]
  rw [decode, fault?_encode, values_eq, pack_sextets]

end Base64

end ScriptLowering
