/-!
# Base64

The standard alphabet with canonical padding: every byte sequence has exactly one spelling, and
decoding accepts nothing else. Faults are looked for in a fixed order, first in the whole groups
of eight symbols that precede the last group, then in the last group.
-/

namespace ScriptLowering

namespace Base64

/-- The padding symbol `=`. -/
def pad : UInt8 := 61

/-- The symbol of a six-bit value. -/
def symbol (value : Nat) : UInt8 :=
  if value < 26 then UInt8.ofNat (65 + value)
  else if value < 52 then UInt8.ofNat (97 + (value - 26))
  else if value < 62 then UInt8.ofNat (48 + (value - 52))
  else if value = 62 then 43
  else 47

/-- The six-bit value of a symbol of the alphabet. -/
def value? (byte : UInt8) : Option Nat :=
  let code := byte.toNat
  if 65 ≤ code ∧ code ≤ 90 then some (code - 65)
  else if 97 ≤ code ∧ code ≤ 122 then some (code - 97 + 26)
  else if 48 ≤ code ∧ code ≤ 57 then some (code - 48 + 52)
  else if code = 43 then some 62
  else if code = 47 then some 63
  else none

/-- The spelling of a byte sequence: four symbols for three bytes, the last group padded. -/
def encode : List UInt8 → List UInt8
  | [] => []
  | [a] => [symbol (a.toNat / 4), symbol (a.toNat % 4 * 16), pad, pad]
  | [a, b] =>
      [symbol (a.toNat / 4), symbol (a.toNat % 4 * 16 + b.toNat / 16),
        symbol (b.toNat % 16 * 4), pad]
  | a :: b :: c :: rest =>
      symbol (a.toNat / 4) :: symbol (a.toNat % 4 * 16 + b.toNat / 16) ::
        symbol (b.toNat % 16 * 4 + c.toNat / 64) :: symbol (c.toNat % 64) :: encode rest

/-- The bytes that a sequence of six-bit values spells. Bits beyond the last whole byte are
dropped. -/
def pack : List Nat → List UInt8
  | a :: b :: c :: d :: rest =>
      UInt8.ofNat (a * 4 + b / 16) :: UInt8.ofNat (b % 16 * 16 + c / 4) ::
        UInt8.ofNat (c % 4 * 64 + d) :: pack rest
  | [a, b, c] => [UInt8.ofNat (a * 4 + b / 16), UInt8.ofNat (b % 16 * 16 + c / 4)]
  | [a, b] => [UInt8.ofNat (a * 4 + b / 16)]
  | _ => []

/-- Why a byte sequence is no canonical spelling. -/
inductive Fault where
  /-- A byte that may not stand at its offset. -/
  | byte (value : UInt8) (offset : Nat)
  /-- A single symbol behind the whole groups of four. -/
  | remainder
  /-- Padding is missing. -/
  | padding
  /-- The last symbol has bits that belong to no byte. -/
  | lastSymbol (value : UInt8) (offset : Nat)
  deriving DecidableEq

namespace Fault

/-- The wording of a fault. -/
def message : Fault → String
  | .byte value offset =>
      "Invalid byte " ++ toString value.toNat ++ ", offset " ++ toString offset ++ "."
  | .remainder => "Encoded text cannot have a 6-bit remainder."
  | .padding => "Invalid padding"
  | .lastSymbol value offset =>
      "Invalid last symbol " ++ toString value.toNat ++ ", offset " ++ toString offset ++ "."

end Fault

/-- The fault of a spelling whose length leaves a single symbol over, seen from its last byte. -/
def remainderFault (last : UInt8) (offset : Nat) : Fault :=
  if last = pad ∨ (value? last).isSome then .remainder else .byte last offset

/-- The first byte that is no symbol, in a stretch where padding is not allowed. -/
def symbolFault? (offset : Nat) : List UInt8 → Option Fault
  | [] => none
  | byte :: rest =>
      if (value? byte).isSome then symbolFault? (offset + 1) rest else some (.byte byte offset)

/-- The first fault of the closing stretch, where `padAt` is the offset of the first padding
symbol met in it. Padding stands in the third or fourth place of a group and nothing but padding
follows it; a fault in either is charged to the first padding symbol. -/
def closingFault? (offset : Nat) (padAt : Option Nat) : List UInt8 → Option Fault
  | [] => none
  | byte :: rest =>
      if byte = pad then
        if offset % 4 < 2 then some (.byte pad (padAt.getD offset))
        else closingFault? (offset + 1) (some (padAt.getD offset)) rest
      else
        match padAt with
        | some first => some (.byte pad first)
        | none =>
            if (value? byte).isSome then closingFault? (offset + 1) none rest
            else some (.byte byte offset)

/-- The fault of a last symbol with bits that belong to no byte. -/
def lastSymbolFault? (symbols : List UInt8) : Option Fault :=
  let spare := if symbols.length % 4 = 2 then 16 else if symbols.length % 4 = 3 then 4 else 1
  match symbols.getLast? with
  | some last =>
      if (value? last).getD 0 % spare = 0 then none
      else some (.lastSymbol last (symbols.length - 1))
  | none => none

/-- The first fault of a spelling, or nothing if it is canonical. -/
def fault? (text : List UInt8) : Option Fault :=
  if text.length % 4 = 1 then
    text.getLast?.map fun last => remainderFault last (text.length - 1)
  else
    let closing := (text.length - 1) / 8 * 8
    symbolFault? 0 (text.take closing)
      <|> closingFault? closing none (text.drop closing)
      <|> (if text.length % 4 = 0 then none else some .padding)
      <|> lastSymbolFault? (text.takeWhile (· != pad))

/-- The bytes that a canonical spelling stands for, or its first fault. -/
def decode (text : List UInt8) : Except Fault (List UInt8) :=
  match fault? text with
  | some fault => .error fault
  | none => .ok (pack (text.filterMap value?))

end Base64

end ScriptLowering
