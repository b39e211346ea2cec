import ScriptLowering.Draft.Builder
import ScriptLowering.Literal.Payload
import ScriptLowering.Proofs.Text.Base64
import ScriptLowering.Proofs.Text.Canonical
import ScriptLowering.Proofs.Text.Utf8
import Mathlib.Data.List.TakeWhile

/-!
# The payloads of strings

A string is written as the base64 spelling of its UTF-8 bytes. That spelling has no white space and
no letter beyond ASCII, so nothing is lost on the way back. The central theorem is that a string is
read from nothing but this spelling, white space at its ends apart.
-/

namespace ScriptLowering

namespace Blank

variable {text : List Char}

theorem dropWhile_isBlank (none_blank : ∀ letter ∈ text, isBlank letter = false) :
    text.dropWhile isBlank = text := by
  cases text with
  | nil => rfl
  | cons letter rest =>
      rw [List.dropWhile_cons, none_blank letter List.mem_cons_self]
      rfl

/-- A text without white space is its own trimmed form. -/
theorem trim_of_no_blank (none_blank : ∀ letter ∈ text, isBlank letter = false) :
    trim text = text := by
  have reverse_none_blank : ∀ letter ∈ text.reverse, isBlank letter = false := by
    intro letter listed
    exact none_blank letter (List.mem_reverse.mp listed)
  rw [trim, trimStart, dropWhile_isBlank none_blank, trimEnd,
    dropWhile_isBlank reverse_none_blank, List.reverse_reverse]

theorem exists_eq_append_trim (text : List Char) :
    ∃ front back, text = front ++ trim text ++ back ∧
      ∀ letter ∈ front ++ back, isBlank letter := by
  have start_eq : text = text.takeWhile isBlank ++ trimStart text :=
    List.takeWhile_append_dropWhile.symm
  have end_eq : trimStart text =
      trim text ++ ((trimStart text).reverse.takeWhile isBlank).reverse := by
    rw [trim, trimEnd, ← List.reverse_append, List.takeWhile_append_dropWhile, List.reverse_reverse]
  refine ⟨text.takeWhile isBlank, ((trimStart text).reverse.takeWhile isBlank).reverse, ?_, ?_⟩
  · rw [List.append_assoc, ← end_eq, ← start_eq]
  · rw [List.forall_mem_append]
    constructor
    · exact fun letter listed => List.mem_takeWhile_imp listed
    · exact fun letter listed => List.mem_takeWhile_imp (List.mem_reverse.mp listed)

theorem trim_append {front core back : List Char}
    (none_blank : ∀ letter ∈ core, isBlank letter = false)
    (blank : ∀ letter ∈ front ++ back, isBlank letter) : trim (front ++ core ++ back) = core := by
  obtain ⟨front_blank, back_blank⟩ := List.forall_mem_append.mp blank
  rw [trim, trimStart, List.append_assoc, List.dropWhile_append_of_pos front_blank]
  cases core with
  | nil =>
      rw [List.nil_append, List.dropWhile_eq_nil_iff.mpr back_blank]
      rfl
  | cons letter rest =>
      have back_reverse_blank : ∀ later ∈ back.reverse, isBlank later :=
        fun later listed => back_blank later (List.mem_reverse.mp listed)
      have core_eq := trim_of_no_blank none_blank
      rw [trim, trimStart, dropWhile_isBlank none_blank, trimEnd] at core_eq
      rw [List.cons_append, List.dropWhile_cons_of_neg (by simp [none_blank letter]), trimEnd,
        ← List.cons_append, List.reverse_append, List.dropWhile_append_of_pos back_reverse_blank,
        core_eq]

/-- A text without white space is what is left of a text exactly if that has nothing but white space
around it. -/
theorem trim_eq_iff {core : List Char} (none_blank : ∀ letter ∈ core, isBlank letter = false) :
    trim text = core ↔
      ∃ front back, text = front ++ core ++ back ∧ ∀ letter ∈ front ++ back, isBlank letter := by
  constructor
  · rintro rfl
    exact exists_eq_append_trim text
  · rintro ⟨front, back, rfl, blank⟩
    exact trim_append none_blank blank

end Blank

namespace Base64

/-- The bytes of a spelling are letters that are no white space. -/
theorem plain_of_mem_encode {bytes : List UInt8} {byte : UInt8} (listed : byte ∈ encode bytes) :
    byte.toNat < 0x80 ∧ Blank.isBlank (Char.ofNat byte.toNat) = false := by
  have symbols_plain : ∀ value < 64, (symbol value).toNat < 0x80 ∧
      Blank.isBlank (Char.ofNat (symbol value).toNat) = false := by decide
  rcases of_mem_encode listed with rfl | ⟨value, fits, rfl⟩
  · decide
  · exact symbols_plain value fits

end Base64

namespace Payload

theorem no_blank_ofString (value : String) :
    ∀ letter ∈ (ofString value).toList, Blank.isBlank letter = false := by
  intro letter listed
  rw [ofString, String.toList_ofList] at listed
  obtain ⟨byte, spelled, rfl⟩ := List.mem_map.mp listed
  exact (Base64.plain_of_mem_encode spelled).2

theorem encode_ofString (value : String) :
    Utf8.encode (ofString value).toList = Base64.encode (Utf8.encode value.toList) := by
  rw [ofString, String.toList_ofList]
  exact Utf8.encode_ascii fun byte spelled => (Base64.plain_of_mem_encode spelled).1

/-- A string is read from its own payload, with white space around it or without, and from no
other. -/
theorem readString_eq_ok_iff {payload value : String} :
    readString payload = .ok value ↔
      Blank.trim payload.toList = (ofString value).toList := by
  have spelled_iff : Blank.trim payload.toList = (ofString value).toList ↔
      Base64.decode (Utf8.encode (Blank.trim payload.toList)) =
        .ok (Utf8.encode value.toList) := by
    rw [Base64.decode_eq_ok_iff, ← encode_ofString, Utf8.encode_injective.eq_iff]
  rw [spelled_iff, readString]
  cases Base64.decode (Utf8.encode (Blank.trim payload.toList)) with
  | error fault => simp
  | ok bytes =>
      dsimp only
      rw [Except.ok.injEq, ← Utf8.decode_eq_ok_iff]
      cases Utf8.decode bytes with
      | error fault => simp
      | ok letters =>
          rw [Except.ok.injEq, Except.ok.injEq, ← String.toList_inj, String.toList_ofList]

/-- A string is read from its own payload. -/
@[simp]
theorem readString_ofString (value : String) : readString (ofString value) = .ok value :=
  readString_eq_ok_iff.mpr (Blank.trim_of_no_blank (no_blank_ofString value))

theorem trim_eq_ofString_iff {payload value : String} :
    Blank.trim payload.toList = (ofString value).toList ↔
      ∃ front back, payload.toList = front ++ (ofString value).toList ++ back ∧
        ∀ letter ∈ front ++ back, Blank.isBlank letter :=
  Blank.trim_eq_iff (no_blank_ofString value)

theorem exists_fault_iff {payload : String} :
    (∃ fault, readString payload = .error fault) ↔
      ∀ value, Blank.trim payload.toList ≠ (ofString value).toList := by
  simp only [ne_eq, ← readString_eq_ok_iff]
  cases readString payload <;> simp

theorem ofConst_of_fault {payload : String} {fault : PayloadFault}
    (unreadable : readString payload = .error fault) :
    Literal.ofConst .string payload = .error (.payload fault) := by
  rw [Literal.ofConst, unreadable]

/-- Reading a string payload undoes writing it, and accepts nothing but what is written, white
space at its ends apart: every other payload is reported as no string. What the builder makes of a
string is what is written. -/
theorem readString_inverts_ofString (payload : String) :
    (∀ value, readString payload = .ok value ↔
        Blank.trim payload.toList = (ofString value).toList) ∧
      (∀ value, Blank.trim payload.toList = (ofString value).toList ↔
        ∃ front back, payload.toList = front ++ (ofString value).toList ++ back ∧
          ∀ letter ∈ front ++ back, Blank.isBlank letter) ∧
      (∀ value, Utf8.encode (ofString value).toList = Base64.encode (Utf8.encode value.toList)) ∧
      (∀ (draft : Draft) value, ∃ result, (draft.build (.string value)).2.instrs =
        draft.instrs.push (.const result .string (ofString value))) ∧
      ((∀ value, Blank.trim payload.toList ≠ (ofString value).toList) ↔
        ∃ fault, readString payload = .error fault ∧
          Literal.ofConst .string payload = .error (.payload fault) ∧
          (Failure.payload fault).message =
            "Invalid " ++ ConstType.string.tag ++ " payload: " ++ fault.message) ∧
      ∀ other value, readString payload = .ok value → readString other = .ok value →
        Blank.trim payload.toList = Blank.trim other.toList := by
  refine ⟨fun value => readString_eq_ok_iff, fun value => trim_eq_ofString_iff, encode_ofString,
    fun draft value => ⟨_, rfl⟩, ?_, ?_⟩
  · rw [← exists_fault_iff]
    constructor
    · rintro ⟨fault, unreadable⟩
      exact ⟨fault, unreadable, ofConst_of_fault unreadable, rfl⟩
    · rintro ⟨fault, unreadable, -⟩
      exact ⟨fault, unreadable⟩
  · intro other value read other_read
    rw [readString_eq_ok_iff.mp read, readString_eq_ok_iff.mp other_read]

theorem spaced_inverts_ofString :
    readString "\n aXQncw== " = .ok "it's" ∧ readString "aXQncw==" = .ok "it's" ∧
      Blank.trim "\n aXQncw== ".toList = Blank.trim "aXQncw==".toList := by
  obtain ⟨read_iff, -, -, -, -, same⟩ := readString_inverts_ofString "\n aXQncw== "
  have read := (read_iff "it's").mpr (by decide +kernel)
  have plain_read : readString "aXQncw==" = .ok "it's" :=
    readString_eq_ok_iff.mpr (by decide +kernel)
  exact ⟨read, plain_read, same "aXQncw==" "it's" read plain_read⟩

end Payload

end ScriptLowering
