import ScriptLowering.Proofs.Text.Base64
import ScriptLowering.Proofs.Text.Utf8
import ScriptLowering.Proofs.Outcome

/-!
# One spelling for everything

Base64 and UTF-8 are read strictly: no byte sequence and no text has a second spelling that would be
accepted. For base64 this is a matter of what is left when all faults have been ruled out, namely
symbols of which the last one wastes nothing, and padding that fills the last group. For UTF-8 it is
a matter of the bounds behind a leading byte. The central theorems are `Base64.decode_eq_ok_iff` and
`Utf8.decode_eq_ok_iff`.
-/

namespace ScriptLowering

namespace Base64

theorem of_value?_eq_some {byte : UInt8} {value : Nat} (found : value? byte = some value) :
    value < 64 ∧ symbol value = byte := by
  have byte_eq : UInt8.ofNat byte.toNat = byte := UInt8.ofNat_toNat
  have bounded : byte.toNat < 256 := byte.toNat_lt
  have all : ∀ code < 256, ∀ value ∈ value? (UInt8.ofNat code),
      value < 64 ∧ symbol value = UInt8.ofNat code := by decide +kernel
  rw [← byte_eq] at found ⊢
  exact all _ bounded value found

/-- The last six-bit value wastes no bits, and there is none left over. -/
def Tidy : List Nat → Prop
  | _ :: _ :: _ :: _ :: rest => Tidy rest
  | [_, _, c] => c % 4 = 0
  | [_, b] => b % 16 = 0
  | [_] => False
  | [] => True

/-- Six-bit values that waste nothing are those of the bytes that they are packed into. -/
theorem sextets_pack {values : List Nat} (fits : ∀ value ∈ values, value < 64)
    (tidy : Tidy values) : sextets (pack values) = values := by
  have toNat_ofNat : ∀ value < 256, (UInt8.ofNat value).toNat = value := fun _ => Utf8.toNat_ofNat
  induction values using pack.induct with
  | case1 a b c d rest induction =>
      simp only [List.forall_mem_cons] at fits
      obtain ⟨a_lt, b_lt, c_lt, d_lt, rest_fit⟩ := fits
      rw [pack, sextets, induction rest_fit tidy, toNat_ofNat _ (by omega),
        toNat_ofNat _ (by omega), toNat_ofNat _ (by omega)]
      simp only [List.cons.injEq, and_true]
      omega
  | case2 a b c =>
      simp only [List.forall_mem_cons] at fits
      obtain ⟨a_lt, b_lt, c_lt, -⟩ := fits
      rw [Tidy] at tidy
      rw [pack, sextets, toNat_ofNat _ (by omega), toNat_ofNat _ (by omega)]
      simp only [List.cons.injEq, and_true]
      omega
  | case3 a b =>
      simp only [List.forall_mem_cons] at fits
      obtain ⟨a_lt, b_lt, -⟩ := fits
      rw [Tidy] at tidy
      rw [pack, sextets, toNat_ofNat _ (by omega)]
      simp only [List.cons.injEq, and_true]
      omega
  | case4 values not_four not_three not_two =>
      rcases values with - | ⟨a, - | ⟨b, - | ⟨c, - | ⟨d, rest⟩⟩⟩⟩
      · rfl
      · exact tidy.elim
      · exact (not_two a b rfl).elim
      · exact (not_three a b c rfl).elim
      · exact (not_four a b c d rest rfl).elim

variable {symbols text : List UInt8}

theorem symbols_of_symbolFault? {offset : Nat} (fine : symbolFault? offset symbols = none) :
    ∀ byte ∈ symbols, (value? byte).isSome := by
  induction symbols generalizing offset with
  | nil => exact fun _ listed => absurd listed List.not_mem_nil
  | cons byte rest induction =>
      rw [symbolFault?] at fine
      split at fine
      · rename_i isSymbol
        exact List.forall_mem_cons.mpr ⟨isSymbol, induction fine⟩
      · cases fine

/-- A closing stretch without faults is made of symbols and then of padding, which stands in the
second half of a group. -/
theorem split_of_closingFault? {offset : Nat} {padAt : Option Nat}
    (fine : closingFault? offset padAt text = none) :
    ∃ symbols pads, text = symbols ++ List.replicate pads pad ∧
      (∀ byte ∈ symbols, (value? byte).isSome) ∧ (padAt.isSome → symbols = []) ∧
      (0 < pads → 2 ≤ (offset + symbols.length) % 4 ∧
        (offset + symbols.length) % 4 + pads ≤ 4) := by
  induction text generalizing offset padAt with
  | nil => exact ⟨[], 0, rfl, by simp, fun _ => rfl, by simp⟩
  | cons byte rest induction =>
      rw [closingFault?.eq_def] at fine
      dsimp only at fine
      by_cases isPad : byte = pad
      · rw [if_pos isPad] at fine
        split at fine
        · cases fine
        · rename_i late
          -- Behind padding there is nothing but padding.
          obtain ⟨symbols, pads, rfl, -, none_left, placed⟩ := induction fine
          obtain rfl := none_left rfl
          refine ⟨[], pads + 1, by rw [isPad]; rfl, by simp, fun _ => rfl, fun _ => ?_⟩
          simp only [List.length_nil, Nat.add_zero] at placed ⊢
          omega
      · rw [if_neg isPad] at fine
        split at fine
        · cases fine
        · split at fine
          · rename_i isSymbol
            obtain ⟨symbols, pads, rfl, all, -, placed⟩ := induction fine
            have all : ∀ later ∈ byte :: symbols, (value? later).isSome :=
              List.forall_mem_cons.mpr ⟨isSymbol, all⟩
            refine ⟨byte :: symbols, pads, rfl, all, by simp, ?_⟩
            rw [List.length_cons]
            rwa [show offset + (symbols.length + 1) = offset + 1 + symbols.length by omega]
          · cases fine

/-- The last symbol is judged by its value and by the length. -/
theorem lastSymbolFault?_concat {front : List UInt8} {last : UInt8} :
    lastSymbolFault? (front ++ [last]) = none ↔
      (value? last).getD 0 % (if (front.length + 1) % 4 = 2 then 16
        else if (front.length + 1) % 4 = 3 then 4 else 1) = 0 := by
  rw [lastSymbolFault?, List.getLast?_concat, List.length_append, List.length_singleton]
  simp only [ite_eq_left_iff, reduceCtorEq, imp_false, not_not]

theorem lastSymbolFault?_of_group {a b c d : UInt8}
    (fine : lastSymbolFault? (a :: b :: c :: d :: symbols) = none) :
    lastSymbolFault? symbols = none := by
  rcases List.eq_nil_or_concat' symbols with rfl | ⟨front, last, rfl⟩
  · rfl
  · have same : ((a :: b :: c :: d :: front).length + 1) % 4 = (front.length + 1) % 4 := by
      simp only [List.length_cons]
      omega
    rw [← List.cons_append, ← List.cons_append, ← List.cons_append, ← List.cons_append,
      lastSymbolFault?_concat, same, ← lastSymbolFault?_concat] at fine
    exact fine

theorem tidy_of_lastSymbolFault? {values : List Nat} (fits : ∀ value ∈ values, value < 64)
    (none_over : values.length % 4 ≠ 1) (fine : lastSymbolFault? (values.map symbol) = none) :
    Tidy values := by
  induction values using Tidy.induct with
  | case1 a b c d rest induction =>
      apply induction
      · exact fun value listed => fits value (by simp [listed])
      · simp only [List.length_cons] at none_over
        omega
      · exact lastSymbolFault?_of_group fine
  | case2 a b c =>
      have last : value? (symbol c) = some c := value?_symbol (fits c (by simp))
      simpa [Tidy, lastSymbolFault?, last] using fine
  | case3 a b =>
      have last : value? (symbol b) = some b := value?_symbol (fits b (by simp))
      simpa [Tidy, lastSymbolFault?, last] using fine
  | case4 a => exact none_over rfl
  | case5 => trivial

theorem exists_values (all : ∀ byte ∈ symbols, (value? byte).isSome) :
    ∃ values : List Nat, symbols = values.map symbol ∧ ∀ value ∈ values, value < 64 := by
  induction symbols with
  | nil => exact ⟨[], rfl, by simp⟩
  | cons byte rest induction =>
      obtain ⟨first, rest_all⟩ := List.forall_mem_cons.mp all
      obtain ⟨value, found⟩ := Option.isSome_iff_exists.mp first
      obtain ⟨fits, spelled⟩ := of_value?_eq_some found
      obtain ⟨values, rfl, rest_fit⟩ := induction rest_all
      exact ⟨value :: values, by rw [List.map_cons, spelled],
        List.forall_mem_cons.mpr ⟨fits, rest_fit⟩⟩

theorem of_fault?_eq_none (fine : fault? text = none) :
    text.length % 4 = 0 ∧ symbolFault? 0 (text.take ((text.length - 1) / 8 * 8)) = none ∧
      closingFault? ((text.length - 1) / 8 * 8) none (text.drop ((text.length - 1) / 8 * 8)) =
        none ∧
      lastSymbolFault? (text.takeWhile (· != pad)) = none := by
  rw [fault?] at fine
  split at fine
  · rename_i remainder
    obtain rfl : text = [] := by simpa using fine
    cases remainder
  · simp only [Option.orElse_eq_orElse, Option.orElse_eq_or, Option.or_eq_none_iff, ite_eq_left_iff,
      reduceCtorEq, imp_false, not_not] at fine
    obtain ⟨front_fine, closing_fine, whole, last_fine⟩ := fine
    exact ⟨whole, front_fine, closing_fine, last_fine⟩

/-- A spelling without faults is made of symbols that waste nothing and of padding that fills the
last group. -/
theorem exists_of_fault? (fine : fault? text = none) :
    ∃ values pads, text = values.map symbol ++ List.replicate pads pad ∧
      (∀ value ∈ values, value < 64) ∧ Tidy values ∧ pads ≤ 2 ∧
      (values.length + pads) % 4 = 0 := by
  obtain ⟨whole, front_fine, closing_fine, last_fine⟩ := of_fault?_eq_none fine
  obtain ⟨closing, pads, closing_eq, closing_all, -, placed⟩ := split_of_closingFault? closing_fine
  have all : ∀ byte ∈ text.take ((text.length - 1) / 8 * 8) ++ closing, (value? byte).isSome :=
    List.forall_mem_append.mpr ⟨symbols_of_symbolFault? front_fine, closing_all⟩
  obtain ⟨values, values_eq, fits⟩ := exists_values all
  have text_eq : text = values.map symbol ++ List.replicate pads pad := by
    rw [← values_eq, List.append_assoc, ← closing_eq, List.take_append_drop]
  have length_eq : text.length = values.length + pads := by
    rw [text_eq, List.length_append, List.length_map, List.length_replicate]
  -- Padding stands in the second half of a group and does not reach beyond it.
  have few : pads ≤ 2 := by omega
  have symbols_eq : text.takeWhile (· != pad) = values.map symbol := by
    rw [text_eq]
    exact takeWhile_ne_pad (values_eq ▸ all) pads
  rw [symbols_eq] at last_fine
  refine ⟨values, pads, text_eq, fits, tidy_of_lastSymbolFault? fits (by omega) last_fine, few, ?_⟩
  rw [← length_eq, whole]

/-- Decoding accepts what encoding writes and nothing else. -/
theorem decode_eq_ok_iff {bytes : List UInt8} : decode text = .ok bytes ↔ text = encode bytes := by
  constructor
  · intro decoded
    rw [decode] at decoded
    split at decoded
    · cases decoded
    · rename_i fine
      obtain ⟨values, pads, rfl, fits, tidy, few, whole⟩ := exists_of_fault? fine
      rw [filterMap_value?_symbols fits] at decoded
      obtain rfl := Except.ok.inj decoded
      have sextets_eq := sextets_pack fits tidy
      have padding_eq : padding (pack values) = pads := by
        have length_eq := length_sextets (pack values)
        have padding_le : padding (pack values) ≤ 2 := by
          rw [padding]
          omega
        rw [sextets_eq] at length_eq
        omega
      rw [encode_eq, sextets_eq, padding_eq]
  · rintro rfl
    exact decode_encode bytes

end Base64

namespace Utf8

theorem toNat_charOfNat {value : Nat}
    (scalar : value < 0xD800 ∨ 0xDFFF < value ∧ value < 0x110000) :
    (Char.ofNat value).val.toNat = value := by
  rw [Char.ofNat, dif_pos scalar]
  rfl

/-- What a leading byte says about the bytes behind it. -/
theorem Pending.ofLead?_cases {lead : Nat} {pending : Pending}
    (opened : ofLead? lead = some pending) :
    (0xC2 ≤ lead ∧ lead ≤ 0xDF ∧ pending = ⟨lead - 0xC0, 1, 1, 0x80, 0xBF⟩) ∨
      (∃ low high, 0xE0 ≤ lead ∧ lead ≤ 0xEF ∧ pending = ⟨lead - 0xE0, 1, 2, low, high⟩ ∧
        0x80 ≤ low ∧ high ≤ 0xBF ∧ (lead = 0xE0 → 0xA0 ≤ low) ∧ (lead = 0xED → high ≤ 0x9F)) ∨
      (∃ low high, 0xF0 ≤ lead ∧ lead ≤ 0xF4 ∧ pending = ⟨lead - 0xF0, 1, 3, low, high⟩ ∧
        0x80 ≤ low ∧ high ≤ 0xBF ∧ (lead = 0xF0 → 0x90 ≤ low) ∧ (lead = 0xF4 → high ≤ 0x8F)) := by
  rw [ofLead?] at opened
  split at opened
  · rename_i two
    exact .inl ⟨two.1, two.2, (Option.some.inj opened).symm⟩
  split at opened
  · rename_i lead_eq
    subst lead_eq
    exact .inr (.inl ⟨0xA0, 0xBF, by omega, by omega, (Option.some.inj opened).symm, by omega,
      by omega, by omega, by omega⟩)
  split at opened
  · rename_i lead_eq
    subst lead_eq
    exact .inr (.inl ⟨0x80, 0x9F, by omega, by omega, (Option.some.inj opened).symm, by omega,
      by omega, by omega, by omega⟩)
  split at opened
  · exact .inr (.inl ⟨0x80, 0xBF, by omega, by omega, (Option.some.inj opened).symm, by omega,
      by omega, by omega, by omega⟩)
  split at opened
  · rename_i lead_eq
    subst lead_eq
    exact .inr (.inr ⟨0x90, 0xBF, by omega, by omega, (Option.some.inj opened).symm, by omega,
      by omega, by omega, by omega⟩)
  split at opened
  · rename_i lead_eq
    subst lead_eq
    exact .inr (.inr ⟨0x80, 0x8F, by omega, by omega, (Option.some.inj opened).symm, by omega,
      by omega, by omega, by omega⟩)
  split at opened
  · exact .inr (.inr ⟨0x80, 0xBF, by omega, by omega, (Option.some.inj opened).symm, by omega,
      by omega, by omega, by omega⟩)
  · cases opened

variable {index : Nat} {bytes rest : List UInt8} {letters : List Char} {byte : UInt8}

theorem decodeFrom_none_cases (decoded : decodeFrom index none (byte :: rest) = .ok letters) :
    (byte.toNat < 0x80 ∧ ∃ later, letters = Char.ofNat byte.toNat :: later ∧
        decodeFrom (index + 1) none rest = .ok later) ∨
      ∃ pending, Pending.ofLead? byte.toNat = some pending ∧
        decodeFrom index (some pending) rest = .ok letters := by
  rw [decodeFrom] at decoded
  split at decoded
  · rename_i ascii
    obtain ⟨later, rest_decoded, ⟨⟩⟩ := Except.bind_eq_ok.mp decoded
    exact .inl ⟨ascii, later, rfl, rest_decoded⟩
  · split at decoded
    · cases decoded
    · rename_i pending opened
      exact .inr ⟨pending, opened, decoded⟩

/-- A letter of several bytes goes on with a byte within its bounds. -/
theorem decodeFrom_some_cases {bits read owed low high : Nat}
    (decoded : decodeFrom index (some ⟨bits, read, owed, low, high⟩) bytes = .ok letters) :
    ∃ byte rest, bytes = byte :: rest ∧ low ≤ byte.toNat ∧ byte.toNat ≤ high ∧
      if owed = 1 then
        ∃ later, letters = Char.ofNat (bits * 64 + (byte.toNat - 0x80)) :: later ∧
          decodeFrom (index + read + 1) none rest = .ok later
      else
        decodeFrom index
          (some ⟨bits * 64 + (byte.toNat - 0x80), read + 1, owed - 1, 0x80, 0xBF⟩) rest =
            .ok letters := by
  cases bytes with
  | nil => cases decoded
  | cons byte rest =>
      rw [decodeFrom] at decoded
      split at decoded
      · rename_i bounds
        refine ⟨byte, rest, rfl, bounds.1, bounds.2, ?_⟩
        split at decoded
        · rename_i last
          obtain ⟨later, rest_decoded, ⟨⟩⟩ := Except.bind_eq_ok.mp decoded
          rw [if_pos last]
          exact ⟨later, rfl, rest_decoded⟩
        · rename_i more
          rw [if_neg more]
          exact decoded
      · cases decoded

/-- The first letter that is read from bytes is spelled as the bytes that it is read from. -/
theorem exists_letter_of_decodeFrom
    (decoded : decodeFrom index none (byte :: rest) = .ok letters) :
    ∃ letter later after next, byte :: rest = String.utf8EncodeChar letter ++ after ∧
      letters = letter :: later ∧ decodeFrom next none after = .ok later := by
  have byte_eq (byte : UInt8) (value : Nat) (same : value = byte.toNat) :
      UInt8.ofNat value = byte := by
    rw [same, UInt8.ofNat_toNat]
  -- One case for each length of a letter. The bounds of the second byte keep its value from being
  -- a shorter letter's, a surrogate or too large.
  rcases decodeFrom_none_cases decoded with ⟨ascii, later, rfl, rest_decoded⟩ |
    ⟨pending, opened, onwards⟩
  · refine ⟨_, later, rest, _, ?_, rfl, rest_decoded⟩
    rw [String.utf8EncodeChar, toNat_charOfNat (by omega), if_pos (by omega), byte_eq byte _ rfl]
    rfl
  rcases Pending.ofLead?_cases opened with ⟨least, greatest, rfl⟩ |
    ⟨low, high, least, greatest, rfl, low_le, le_high, short, surrogate⟩ |
    ⟨low, high, least, greatest, rfl, low_le, le_high, short, beyond⟩
  · obtain ⟨second, rest, rfl, secondLow, secondHigh, last⟩ := decodeFrom_some_cases onwards
    obtain ⟨later, rfl, rest_decoded⟩ := (if_pos rfl).mp last
    refine ⟨_, later, rest, _, ?_, rfl, rest_decoded⟩
    rw [String.utf8EncodeChar, toNat_charOfNat (by omega), if_neg (by omega), if_pos (by omega),
      byte_eq byte _ (by omega), byte_eq second _ (by omega)]
    rfl
  · obtain ⟨second, _, rfl, secondLow, secondHigh, onwards⟩ := decodeFrom_some_cases onwards
    rw [if_neg (by decide)] at onwards
    obtain ⟨third, rest, rfl, thirdLow, thirdHigh, last⟩ := decodeFrom_some_cases onwards
    obtain ⟨later, rfl, rest_decoded⟩ := (if_pos rfl).mp last
    refine ⟨_, later, rest, _, ?_, rfl, rest_decoded⟩
    rw [String.utf8EncodeChar, toNat_charOfNat (by omega), if_neg (by omega), if_neg (by omega),
      if_pos (by omega), byte_eq byte _ (by omega), byte_eq second _ (by omega),
      byte_eq third _ (by omega)]
    rfl
  · obtain ⟨second, _, rfl, secondLow, secondHigh, onwards⟩ := decodeFrom_some_cases onwards
    rw [if_neg (by decide)] at onwards
    obtain ⟨third, _, rfl, thirdLow, thirdHigh, onwards⟩ := decodeFrom_some_cases onwards
    rw [if_neg (by decide)] at onwards
    obtain ⟨fourth, rest, rfl, fourthLow, fourthHigh, last⟩ := decodeFrom_some_cases onwards
    obtain ⟨later, rfl, rest_decoded⟩ := (if_pos rfl).mp last
    refine ⟨_, later, rest, _, ?_, rfl, rest_decoded⟩
    rw [String.utf8EncodeChar, toNat_charOfNat (by omega), if_neg (by omega), if_neg (by omega),
      if_neg (by omega), byte_eq byte _ (by omega), byte_eq second _ (by omega),
      byte_eq third _ (by omega), byte_eq fourth _ (by omega)]
    rfl

theorem eq_encode_of_decodeFrom (decoded : decodeFrom index none bytes = .ok letters) :
    bytes = encode letters := by
  induction letters generalizing index bytes with
  | nil =>
      cases bytes with
      | nil => rfl
      | cons byte rest =>
          obtain ⟨letter, later, _, _, _, absurdity, _⟩ := exists_letter_of_decodeFrom decoded
          cases absurdity
  | cons letter letters induction =>
      cases bytes with
      | nil => cases decoded
      | cons byte rest =>
          obtain ⟨_, _, after, next, spelled, ⟨⟩, rest_decoded⟩ :=
            exists_letter_of_decodeFrom decoded
          rw [spelled, encode, List.flatMap_cons, induction rest_decoded]
          rfl

/-- Decoding accepts what encoding writes and nothing else. -/
theorem decode_eq_ok_iff : decode bytes = .ok letters ↔ bytes = encode letters := by
  constructor
  · exact eq_encode_of_decodeFrom
  · rintro rfl
    exact decode_encode letters

theorem encode_injective : Function.Injective encode := by
  intro first second same
  have decoded := decode_encode first
  rw [same, decode_encode] at decoded
  exact (Except.ok.inj decoded).symm

end Utf8

end ScriptLowering
