/-!
# UTF-8

Texts as byte sequences. Decoding reads one byte at a time and refuses a sequence at the first
byte that rules it out, so that a fault names the longest valid part before it.
-/

namespace ScriptLowering

namespace Utf8

/-- The bytes of a text. -/
def encode (text : List Char) : List UInt8 :=
  text.flatMap String.utf8EncodeChar

/-- Why a byte sequence is no text. The index is the length of the valid part. -/
inductive Fault where
  /-- The `length` bytes from `index` on begin no character. -/
  | invalid (length index : Nat)
  /-- The bytes end inside the character that starts at `index`. -/
  | incomplete (index : Nat)
  deriving DecidableEq

namespace Fault

/-- The wording of a fault. -/
def message : Fault → String
  | .invalid length index =>
      "invalid utf-8 sequence of " ++ toString length ++ " bytes from index " ++ toString index
  | .incomplete index => "incomplete utf-8 byte sequence from index " ++ toString index

end Fault

/-- A character of several bytes of which at least one byte is still owed. -/
structure Pending where
  /-- The payload bits read so far. -/
  bits : Nat
  /-- The number of bytes read so far. -/
  read : Nat
  /-- The number of bytes still owed. -/
  owed : Nat
  /-- The least value that the next byte may have. -/
  low : Nat
  /-- The greatest value that the next byte may have. -/
  high : Nat

namespace Pending

/-- The character that a leading byte opens. The second byte is bounded more tightly after the
leads `E0`, `ED`, `F0` and `F4`, which excludes overlong forms, surrogates and code points above
`10FFFF`. -/
def ofLead? (lead : Nat) : Option Pending :=
  if 0xC2 ≤ lead ∧ lead ≤ 0xDF then some ⟨lead - 0xC0, 1, 1, 0x80, 0xBF⟩
  else if lead = 0xE0 then some ⟨0x0, 1, 2, 0xA0, 0xBF⟩
  else if lead = 0xED then some ⟨0xD, 1, 2, 0x80, 0x9F⟩
  else if 0xE1 ≤ lead ∧ lead ≤ 0xEF then some ⟨lead - 0xE0, 1, 2, 0x80, 0xBF⟩
  else if lead = 0xF0 then some ⟨0x0, 1, 3, 0x90, 0xBF⟩
  else if lead = 0xF4 then some ⟨0x4, 1, 3, 0x80, 0x8F⟩
  else if 0xF1 ≤ lead ∧ lead ≤ 0xF3 then some ⟨lead - 0xF0, 1, 3, 0x80, 0xBF⟩
  else none

end Pending

/-- Decode from a position where `index` bytes form complete characters and `pending` is the
character under way, if any. -/
def decodeFrom (index : Nat) : Option Pending → List UInt8 → Except Fault (List Char)
  | none, [] => .ok []
  | some _, [] => .error (.incomplete index)
  | none, byte :: rest =>
      if byte.toNat < 0x80 then do
        return Char.ofNat byte.toNat :: (← decodeFrom (index + 1) none rest)
      else
        match Pending.ofLead? byte.toNat with
        | none => .error (.invalid 1 index)
        | some pending => decodeFrom index (some pending) rest
  | some pending, byte :: rest =>
      if pending.low ≤ byte.toNat ∧ byte.toNat ≤ pending.high then
        let bits := pending.bits * 64 + (byte.toNat - 0x80)
        if pending.owed = 1 then do
          return Char.ofNat bits :: (← decodeFrom (index + pending.read + 1) none rest)
        else
          decodeFrom index (some ⟨bits, pending.read + 1, pending.owed - 1, 0x80, 0xBF⟩) rest
      else
        .error (.invalid pending.read index)

/-- The text that a byte sequence spells, or the first fault in it. -/
def decode (bytes : List UInt8) : Except Fault (List Char) :=
  decodeFrom 0 none bytes

end Utf8

end ScriptLowering
