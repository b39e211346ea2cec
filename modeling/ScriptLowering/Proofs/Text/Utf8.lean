import ScriptLowering.Text.Utf8
import Mathlib.Data.List.Basic

/-!
# Reading back UTF-8

The bytes of a text are those of its letters, and decoding reads them one letter at a time. A
leading byte bounds the byte behind it, so the case that needs care is that these bounds hold for
what a letter is spelled as. The central theorem is that decoding gives back what has been encoded.
-/

namespace ScriptLowering

namespace Utf8

namespace Pending

variable {value : Nat}

theorem ofLead?_two (above : 0x7F < value) (below : value ≤ 0x7FF) :
    ofLead? (value / 64 + 0xC0) = some ⟨value / 64, 1, 1, 0x80, 0xBF⟩ := by
  have lead : 0xC2 ≤ value / 64 + 0xC0 ∧ value / 64 + 0xC0 ≤ 0xDF := by omega
  rw [ofLead?, if_pos lead, Nat.add_sub_cancel]

/-- The bounds behind the lead of three bytes exclude what is shorter and the surrogates. -/
theorem ofLead?_three (above : 0x7FF < value) (below : value ≤ 0xFFFF)
    (scalar : value < 0xD800 ∨ 0xDFFF < value) :
    ∃ low high, ofLead? (value / 4096 + 0xE0) = some ⟨value / 4096, 1, 2, low, high⟩ ∧
      low ≤ value / 64 % 64 + 0x80 ∧ value / 64 % 64 + 0x80 ≤ high := by
  have not_two : ¬ (0xC2 ≤ value / 4096 + 0xE0 ∧ value / 4096 + 0xE0 ≤ 0xDF) := by omega
  rw [ofLead?, if_neg not_two]
  by_cases least : value / 4096 = 0
  · refine ⟨0xA0, 0xBF, by simp [least], ?_, ?_⟩ <;> omega
  rw [if_neg (by omega)]
  by_cases surrogate : value / 4096 = 0xD
  · refine ⟨0x80, 0x9F, by simp [surrogate], ?_, ?_⟩ <;> omega
  rw [if_neg (by omega), if_pos (by omega), Nat.add_sub_cancel]
  refine ⟨0x80, 0xBF, rfl, ?_, ?_⟩ <;> omega

/-- The bounds behind the lead of four bytes exclude what is shorter and what is no code point. -/
theorem ofLead?_four (above : 0xFFFF < value) (below : value < 0x110000) :
    ∃ low high, ofLead? (value / 262144 + 0xF0) = some ⟨value / 262144, 1, 3, low, high⟩ ∧
      low ≤ value / 4096 % 64 + 0x80 ∧ value / 4096 % 64 + 0x80 ≤ high := by
  have not_two : ¬ (0xC2 ≤ value / 262144 + 0xF0 ∧ value / 262144 + 0xF0 ≤ 0xDF) := by omega
  rw [ofLead?, if_neg not_two, if_neg (by omega), if_neg (by omega), if_neg (by omega)]
  by_cases least : value / 262144 = 0
  · refine ⟨0x90, 0xBF, by simp [least], ?_, ?_⟩ <;> omega
  rw [if_neg (by omega)]
  by_cases greatest : value / 262144 = 4
  · refine ⟨0x80, 0x8F, by simp [greatest], ?_, ?_⟩ <;> omega
  rw [if_neg (by omega), if_pos (by omega), Nat.add_sub_cancel]
  refine ⟨0x80, 0xBF, rfl, ?_, ?_⟩ <;> omega

end Pending

variable {index : Nat} {pending : Pending} {value : Nat}

theorem toNat_ofNat (fits : value < 256) : (UInt8.ofNat value).toNat = value := by
  rw [UInt8.toNat_ofNat', Nat.mod_eq_of_lt fits]

theorem decodeFrom_ascii (ascii : value < 0x80) (rest : List UInt8) :
    decodeFrom index none (UInt8.ofNat value :: rest) =
      (decodeFrom (index + 1) none rest).map (Char.ofNat value :: ·) := by
  rw [decodeFrom, toNat_ofNat (by omega), if_pos ascii]
  cases decodeFrom (index + 1) none rest <;> rfl

theorem decodeFrom_lead (many : 0x80 ≤ value) (fits : value < 256)
    (opened : Pending.ofLead? value = some pending) (rest : List UInt8) :
    decodeFrom index none (UInt8.ofNat value :: rest) =
      decodeFrom index (some pending) rest := by
  rw [decodeFrom, toNat_ofNat fits, if_neg (by omega), opened]

theorem decodeFrom_between {bits read owed low high : Nat} (low_le : low ≤ value + 0x80)
    (le_high : value + 0x80 ≤ high) (fits : value < 64) (rest : List UInt8) :
    decodeFrom index (some ⟨bits, read, owed + 2, low, high⟩) (UInt8.ofNat (value + 0x80) :: rest) =
      decodeFrom index (some ⟨bits * 64 + value, read + 1, owed + 1, 0x80, 0xBF⟩) rest := by
  rw [decodeFrom, toNat_ofNat (by omega), if_pos ⟨low_le, le_high⟩]
  dsimp only
  rw [if_neg (by omega), Nat.add_sub_cancel]
  rfl

theorem decodeFrom_last {bits read low high : Nat} (low_le : low ≤ value + 0x80)
    (le_high : value + 0x80 ≤ high) (fits : value < 64) (rest : List UInt8) :
    decodeFrom index (some ⟨bits, read, 1, low, high⟩) (UInt8.ofNat (value + 0x80) :: rest) =
      (decodeFrom (index + read + 1) none rest).map (Char.ofNat (bits * 64 + value) :: ·) := by
  rw [decodeFrom, toNat_ofNat (by omega), if_pos ⟨low_le, le_high⟩]
  dsimp only
  rw [if_pos rfl, Nat.add_sub_cancel]
  cases decodeFrom (index + read + 1) none rest <;> rfl

/-- The bytes of a letter are read as that letter. -/
theorem decodeFrom_letter (letter : Char) (index : Nat) (rest : List UInt8) :
    ∃ next, decodeFrom index none (String.utf8EncodeChar letter ++ rest) =
      (decodeFrom next none rest).map (letter :: ·) := by
  have scalar : letter.toNat < 0xD800 ∨ 0xDFFF < letter.toNat ∧ letter.toNat < 0x110000 :=
    letter.valid
  have letter_eq : ∀ value, value = letter.toNat → Char.ofNat value = letter := by
    rintro value rfl
    exact letter.ofNat_toNat
  rw [String.utf8EncodeChar, show letter.val.toNat = letter.toNat from rfl]
  generalize letter.toNat = value at scalar letter_eq
  by_cases one : value ≤ 0x7F
  · rw [if_pos one, List.singleton_append, decodeFrom_ascii (by omega), letter_eq _ rfl]
    exact ⟨_, rfl⟩
  rw [if_neg one]
  by_cases two : value ≤ 0x7FF
  · rw [if_pos two, Nat.mod_eq_of_lt (show value / 64 < 32 by omega)]
    simp only [List.cons_append, List.nil_append]
    rw [decodeFrom_lead (by omega) (by omega) (Pending.ofLead?_two (by omega) two),
      decodeFrom_last (by omega) (by omega) (by omega), letter_eq _ (by omega)]
    exact ⟨_, rfl⟩
  rw [if_neg two]
  by_cases three : value ≤ 0xFFFF
  · obtain ⟨low, high, opened, low_le, le_high⟩ :=
      Pending.ofLead?_three (by omega) three (by omega)
    rw [if_pos three, Nat.mod_eq_of_lt (show value / 4096 < 16 by omega)]
    simp only [List.cons_append, List.nil_append]
    rw [decodeFrom_lead (by omega) (by omega) opened,
      decodeFrom_between low_le le_high (by omega),
      decodeFrom_last (by omega) (by omega) (by omega), letter_eq _ (by omega)]
    exact ⟨_, rfl⟩
  · obtain ⟨low, high, opened, low_le, le_high⟩ :=
      Pending.ofLead?_four (Nat.lt_of_not_le three) (by omega)
    rw [if_neg three, Nat.mod_eq_of_lt (show value / 262144 < 8 by omega)]
    simp only [List.cons_append, List.nil_append]
    rw [decodeFrom_lead (by omega) (by omega) opened,
      decodeFrom_between low_le le_high (by omega),
      decodeFrom_between (by omega) (by omega) (by omega),
      decodeFrom_last (by omega) (by omega) (by omega), letter_eq _ (by omega)]
    exact ⟨_, rfl⟩

@[simp]
theorem decodeFrom_encode (letters : List Char) (index : Nat) :
    decodeFrom index none (encode letters) = .ok letters := by
  induction letters generalizing index with
  | nil => rfl
  | cons letter rest induction =>
      obtain ⟨next, first⟩ := decodeFrom_letter letter index (encode rest)
      rw [encode] at first induction ⊢
      rw [List.flatMap_cons, first, induction]
      rfl

/-- Decoding gives back what has been encoded. -/
@[simp]
theorem decode_encode (letters : List Char) : decode (encode letters) = .ok letters :=
  decodeFrom_encode letters 0

/-- The letters of the bytes below 128 are spelled as these bytes. -/
theorem encode_ascii {bytes : List UInt8} (ascii : ∀ byte ∈ bytes, byte.toNat < 0x80) :
    encode (bytes.map fun byte => Char.ofNat byte.toNat) = bytes := by
  induction bytes with
  | nil => rfl
  | cons byte rest induction =>
      have first := ascii byte List.mem_cons_self
      have code_eq : (Char.ofNat byte.toNat).val.toNat = byte.toNat := by
        rw [Char.ofNat, dif_pos (.inl (by omega))]
        rfl
      have letter_eq : String.utf8EncodeChar (Char.ofNat byte.toNat) = [byte] := by
        rw [String.utf8EncodeChar, code_eq, if_pos (by omega), UInt8.ofNat_toNat]
      have rest_eq := induction fun later listed => ascii later (List.mem_cons_of_mem _ listed)
      rw [encode] at rest_eq ⊢
      rw [List.map_cons, List.flatMap_cons, letter_eq, rest_eq]
      rfl

end Utf8

end ScriptLowering
