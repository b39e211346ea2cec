/-!
# White space

The characters of the Unicode property `White_Space`, and the removal of runs of them at the
ends of a text.
-/

namespace ScriptLowering

namespace Blank

/-- The inclusive ranges of code points with the property `White_Space`, in increasing order. -/
def ranges : List (Nat × Nat) :=
  [(0x0009, 0x000D), (0x0020, 0x0020), (0x0085, 0x0085), (0x00A0, 0x00A0), (0x1680, 0x1680),
    (0x2000, 0x200A), (0x2028, 0x2029), (0x202F, 0x202F), (0x205F, 0x205F), (0x3000, 0x3000)]

/-- The character has the property `White_Space`. -/
def isBlank (letter : Char) : Bool :=
  ranges.any fun (low, high) => low ≤ letter.toNat && letter.toNat ≤ high

/-- The text without its leading white space. -/
def trimStart (text : List Char) : List Char :=
  text.dropWhile isBlank

/-- The text without its trailing white space. -/
def trimEnd (text : List Char) : List Char :=
  (text.reverse.dropWhile isBlank).reverse

/-- The text without white space at either end. -/
def trim (text : List Char) : List Char :=
  trimEnd (trimStart text)

end Blank

end ScriptLowering
