import ScriptLowering.Proofs.Literal.Integer

/-!
# The lexical class of a literal

The spelling of a constant is an integer, a floating-point numeral or a quoted text, and no text is
two of these. The central theorem is that the type of a constant decides which of them it is, for
all payloads. In particular no floating-point constant becomes an integer in lowered code, and none
is a non-number.
-/

namespace ScriptLowering

/-- What a literal looks like. -/
inductive LexicalClass where
  | integer
  | float
  | text
  deriving DecidableEq

namespace LexicalClass

open Numeral

/-- An optional minus and digits, and nothing else. -/
def IsInteger (spelling : List Char) : Prop :=
  ∃ sign digits, (sign = [] ∨ sign = ['-']) ∧ DigitRow digits ∧ spelling = sign ++ digits

/-- An infinity, or a numeral that has a point or an exponent. -/
def IsFloat (spelling : List Char) : Prop :=
  spelling = "INF".toList ∨ spelling = "-INF".toList ∨
    ∃ numeral : Numeral, numeral.Tidy ∧ spelling = numeral.spelling ∧
      ('.' ∈ spelling ∨ 'e' ∈ spelling)

/-- A quote at the start and one at the end. -/
def IsQuoted (spelling : List Char) : Prop :=
  spelling.head? = some '\'' ∧ spelling.getLast? = some '\''

/-- The spellings of a class. -/
def Spells : LexicalClass → List Char → Prop
  | .integer => IsInteger
  | .float => IsFloat
  | .text => IsQuoted

variable {spelling : List Char}

theorem of_mem_integer (integer : IsInteger spelling) (letter : Char) (listed : letter ∈ spelling) :
    letter = '-' ∨ letter.isDigit := by
  obtain ⟨sign, digits, sign_eq, row, rfl⟩ := integer
  exact of_mem_signed sign_eq row.all_digits listed

theorem exists_mark_of_float (float : IsFloat spelling) :
    'I' ∈ spelling ∨ '.' ∈ spelling ∨ 'e' ∈ spelling := by
  rcases float with rfl | rfl | ⟨-, -, -, mark⟩
  · simp
  · simp
  · exact .inr mark

theorem head_of_float (float : IsFloat spelling) (letter : Char)
    (first : spelling.head? = some letter) : letter = 'I' ∨ letter = '-' ∨ letter.isDigit := by
  rcases float with rfl | rfl | ⟨numeral, tidy, rfl, -⟩
  · exact .inl (Option.some.inj first).symm
  · exact .inr (.inl (Option.some.inj first).symm)
  · exact .inr (head_of_tidy tidy first)

theorem not_float_of_integer (integer : IsInteger spelling) : ¬ IsFloat spelling := by
  intro float
  rcases exists_mark_of_float float with mark | mark | mark
  all_goals simpa using of_mem_integer integer _ mark

theorem not_quoted_of_integer (integer : IsInteger spelling) : ¬ IsQuoted spelling := by
  intro quoted
  simpa using of_mem_integer integer _ (List.mem_of_mem_head? quoted.1)

theorem not_quoted_of_float (float : IsFloat spelling) : ¬ IsQuoted spelling := by
  intro quoted
  simpa using head_of_float float _ quoted.1

/-- No text is a spelling of two classes. -/
theorem Spells.unique {left right : LexicalClass} (spells : left.Spells spelling)
    (others : right.Spells spelling) : left = right := by
  cases left <;> cases right
  case integer.integer | float.float | text.text => rfl
  case integer.float => exact absurd others (not_float_of_integer spells)
  case float.integer => exact absurd spells (not_float_of_integer others)
  case integer.text => exact absurd others (not_quoted_of_integer spells)
  case text.integer => exact absurd spells (not_quoted_of_integer others)
  case float.text => exact absurd others (not_quoted_of_float spells)
  case text.float => exact absurd spells (not_quoted_of_float others)

/-- The spelling of the non-numbers is of no class. -/
theorem not_spells_nan (lexical : LexicalClass) : ¬ lexical.Spells "NAN".toList := by
  intro spells
  cases lexical with
  | integer => simpa using of_mem_integer spells 'N' (by simp)
  | float => simpa using head_of_float spells 'N' rfl
  | text => simpa using spells.1

end LexicalClass

namespace Binary64

/-- The number is finite or an infinity. -/
def IsNumber (value : Binary64) : Prop :=
  value.isFinite ∨ value.isInfinite

theorem isNumber_ofMagnitude (negative : Bool) (magnitude : Nat) :
    (ofMagnitude negative magnitude).IsNumber := by
  rw [ofMagnitude]
  split
  · rename_i finite
    have quotient_lt : magnitude / fractions < 2047 :=
      Nat.div_lt_of_lt_mul (Nat.mul_comm 2047 fractions ▸ finite)
    have exponent_lt := Nat.lt_of_le_of_lt (Nat.mod_le _ 2048) quotient_lt
    exact .inl (bne_iff_ne.mpr (Nat.ne_of_lt exponent_lt))
  · exact .inr rfl

theorem isNumber_ofDecimal (negative : Bool) (digits : Nat) (exponent : Int) :
    (ofDecimal negative digits exponent).IsNumber := by
  rw [ofDecimal.eq_def]
  split
  · exact .inl rfl
  · split
    · split
      · exact .inr rfl
      · exact isNumber_ofMagnitude _ _
    · split
      · exact .inl rfl
      · exact isNumber_ofMagnitude _ _

end Binary64

theorem Payload.isNumber_readFloat (text : List Char) : (readFloat text).IsNumber := by
  rw [readFloat]
  split
  · exact Binary64.isNumber_ofDecimal _ _ _
  · exact .inl rfl

/-- The class of the constants of a type. -/
def ConstType.lexicalClass : ConstType → LexicalClass
  | .bool | .long | .numeric => .integer
  | .double => .float
  | .string => .text

namespace Literal

open LexicalClass

theorem isInteger_render (value : Int) : IsInteger (render (.int value)).toList := by
  exact ⟨_, _, Payload.minus_cases value, Numeral.digitRow_toDigits value.natAbs,
    Payload.toList_toString_int value⟩

theorem isFloat_render {value : Binary64} (number : value.IsNumber) :
    IsFloat (render (.float value)).toList := by
  rw [render, renderFloat]
  by_cases finite : value.isFinite
  · obtain ⟨numeral, tidy, marked, write_eq⟩ := exists_numeral value
    rw [if_pos finite, String.toList_ofList, write_eq]
    exact .inr (.inr ⟨numeral, tidy, rfl, Numeral.mark_mem_spelling tidy marked⟩)
  · rw [if_neg finite, if_pos (number.resolve_left finite)]
    split
    · exact .inr (.inl rfl)
    · exact .inl rfl

theorem isQuoted_render (value : String) : IsQuoted (render (.text value)).toList := by
  rw [render, renderText, String.toList_ofList, Quoted.quote]
  exact ⟨rfl, by rw [← List.cons_append, List.getLast?_concat]⟩

variable {type : ConstType} {payload : String} {value : Literal}

theorem spells_render (read : ofConst type payload = .ok value) :
    type.lexicalClass.Spells value.render.toList := by
  cases type with
  | bool | long | numeric =>
      rw [← Except.ok.inj read]
      exact isInteger_render _
  | double =>
      rw [← Except.ok.inj read]
      exact isFloat_render (Payload.isNumber_readFloat _)
  | string =>
      rw [ofConst] at read
      split at read
      · rw [← Except.ok.inj read]
        exact isQuoted_render _
      · cases read

theorem spells_render_iff (read : ofConst type payload = .ok value) (lexical : LexicalClass) :
    lexical.Spells value.render.toList ↔ type.lexicalClass = lexical := by
  constructor
  · intro spells
    exact (spells_render read).unique spells
  · intro class_eq
    exact class_eq ▸ spells_render read

/-- The type of a constant shows in its spelling, whatever its payload. The spelling is an optional
minus and digits for truth values and integers alone, it has quotes around it for strings alone, and
it is an infinity or a numeral with a point or an exponent for floating-point constants alone. It
is never that of a non-number, and constants of different classes have different spellings. -/
theorem spelling_shows_class (read : ofConst type payload = .ok value) :
    (IsInteger value.render.toList ↔ type = .bool ∨ type = .long ∨ type = .numeric) ∧
    (IsQuoted value.render.toList ↔ type = .string) ∧
    (IsFloat value.render.toList ↔ type = .double) ∧
    value.render ≠ "NAN" ∧
    ∀ otherType otherPayload other, ofConst otherType otherPayload = .ok other →
      other.render = value.render → otherType.lexicalClass = type.lexicalClass := by
  refine ⟨?_, ?_, ?_, ?_, ?_⟩
  · rw [← show LexicalClass.integer.Spells = IsInteger from rfl, spells_render_iff read]
    cases type <;> simp [ConstType.lexicalClass]
  · rw [← show LexicalClass.text.Spells = IsQuoted from rfl, spells_render_iff read]
    cases type <;> simp [ConstType.lexicalClass]
  · rw [← show LexicalClass.float.Spells = IsFloat from rfl, spells_render_iff read]
    cases type <;> simp [ConstType.lexicalClass]
  · intro nan
    exact not_spells_nan _ (nan ▸ spells_render read)
  · intro otherType otherPayload other otherRead render_eq
    have spells := spells_render otherRead
    rw [render_eq] at spells
    exact spells.unique (spells_render read)

/-- A negative zero without a fraction keeps its sign and gets a fraction, so that it is spelled as
a floating-point number and as no integer. -/
theorem negative_zero_shows_class :
    ofConst .double " -0kg" = .ok (.float (.zero true)) ∧
      (Literal.float (.zero true)).render = "-0.0" ∧
      IsFloat "-0.0".toList ∧ ¬ IsInteger "-0.0".toList ∧
      ∀ otherType otherPayload, ofConst otherType otherPayload = .ok (.float (.zero true)) →
        otherType.lexicalClass = .float := by
  have render_eq : (Literal.float (.zero true)).render = "-0.0" := by decide
  have read : ofConst .double " -0kg" = .ok (.float (.zero true)) := by decide
  obtain ⟨integer, -, float, -, same⟩ := spelling_shows_class read
  rw [render_eq] at integer float
  refine ⟨read, render_eq, float.mpr rfl, ?_, ?_⟩
  · simpa using integer
  · exact fun otherType otherPayload otherRead => same otherType otherPayload _ otherRead rfl

end Literal

end ScriptLowering
