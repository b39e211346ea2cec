import ScriptLowering.Naming.Basic
import ScriptLowering.Text.Delimited
import ScriptLowering.Text.Hex

/-!
# Naming documents

A naming is configured by a TOML document of at most three settings, each a key with a string.
Every other setting and every other kind of value is refused, so a document is a list of
assignments of strings, with blank lines and comments between them.
-/

namespace ScriptLowering

namespace Document

/-- The text with a line feed for each line end. A carriage return stands only in front of a line
feed. -/
def normalizeLineEnds? : List Char → Option (List Char)
  | [] => some []
  | '\x0d' :: '\n' :: rest => do return '\n' :: (← normalizeLineEnds? rest)
  | letter :: rest =>
      if letter = '\x0d' then none else do return letter :: (← normalizeLineEnds? rest)

/-- The character is a space or a tab. -/
def isSpace (letter : Char) : Bool :=
  letter == ' ' || letter == '\t'

/-- The character may stand in a comment or bare in a string: a tab or no control character. -/
def isPlain (letter : Char) : Bool :=
  letter == '\t' || (decide (0x20 ≤ letter.toNat) && letter.toNat != 0x7F)

/-- The character may stand in a key without quotes. -/
def isKeyChar (letter : Char) : Bool :=
  letter.isAlphanum || letter == '_' || letter == '-'

/-- The text without leading spaces and tabs. -/
def skipSpace (text : List Char) : List Char :=
  text.dropWhile isSpace

/-- Skipping spaces makes a text no longer. -/
theorem length_skipSpace (text : List Char) : (skipSpace text).length ≤ text.length :=
  (List.dropWhile_suffix isSpace).length_le

/-- The character of a code point that is no surrogate and not beyond the last one. -/
def scalar? (code : Nat) : Option Char :=
  if code.isValidChar then some (Char.ofNat code) else none

/-- The character of a short escape. -/
def shortEscape? : Char → Option Char
  | 'b' => some '\x08'
  | 't' => some '\t'
  | 'n' => some '\n'
  | 'f' => some '\x0c'
  | 'r' => some '\x0d'
  | '"' => some '"'
  | '\\' => some '\\'
  | _ => none

/-- What a string with escapes spells. A string of several lines may hold line feeds, and in it a
backslash at the end of a line removes the white space up to the next other character, which is
under way while `skipping`. -/
def unescape? (severalLines : Bool) (skipping : Bool) : List Char → Option (List Char)
  | [] => some []
  | '\\' :: rest =>
      if severalLines && (skipSpace rest).head? == some '\n' then unescape? severalLines true rest
      else
        match rest with
        | 'u' :: a :: b :: c :: d :: behind => do
            return (← scalar? (← Hex.number? [a, b, c, d]))
              :: (← unescape? severalLines false behind)
        | 'U' :: a :: b :: c :: d :: e :: f :: g :: h :: behind => do
            return (← scalar? (← Hex.number? [a, b, c, d, e, f, g, h]))
              :: (← unescape? severalLines false behind)
        | mark :: behind => do
            return (← shortEscape? mark) :: (← unescape? severalLines false behind)
        | [] => none
  | letter :: rest =>
      if skipping && (isSpace letter || letter == '\n') then unescape? severalLines true rest
      else if isPlain letter || (severalLines && letter == '\n') then do
        return letter :: (← unescape? severalLines false rest)
      else none

/-- What a string without escapes spells. -/
def literal? (severalLines : Bool) (text : List Char) : Option (List Char) :=
  if text.all fun letter => isPlain letter || (severalLines && letter == '\n') then some text
  else none

/-- The text without a line feed at its start. -/
def skipLineFeed : List Char → List Char
  | '\n' :: rest => rest
  | text => text

/-- What the inside of a delimited text spells, with the text behind it. -/
def spell? (spelling? : List Char → Option (List Char)) :
    Option (List Char × List Char) → Option (List Char × List Char)
  | some (inside, behind) => (spelling? inside).map (·, behind)
  | none => none

/-- Spelling out the inside does not touch what stands behind. -/
theorem eq_some_of_spell? {spelling? : List Char → Option (List Char)}
    {split : Option (List Char × List Char)} {value rest : List Char}
    (found : spell? spelling? split = some (value, rest)) :
    ∃ inside, split = some (inside, rest) := by
  cases split with
  | none => simp [spell?] at found
  | some parts =>
      obtain ⟨inside, behind⟩ := parts
      obtain ⟨_, _, equal⟩ := Option.map_eq_some_iff.1 found
      obtain ⟨_, rfl⟩ := Prod.mk.injEq .. ▸ equal
      exact ⟨inside, rfl⟩

/-- A string on one line at the start of a text, and the text behind it. -/
def lineString? : List Char → Option (List Char × List Char)
  | '"' :: rest => spell? (unescape? false false) (Delimited.split? '"' true rest)
  | '\'' :: rest => spell? (literal? false) (Delimited.split? '\'' false rest)
  | _ => none

/-- What stands behind a string on one line is shorter than what the string was read from. -/
theorem length_lineString? {text value rest : List Char}
    (found : lineString? text = some (value, rest)) : rest.length < text.length := by
  unfold lineString? at found
  split at found
  · obtain ⟨_, split⟩ := eq_some_of_spell? found
    exact Nat.lt_succ_of_lt (Delimited.length_split? split)
  · obtain ⟨_, split⟩ := eq_some_of_spell? found
    exact Nat.lt_succ_of_lt (Delimited.length_split? split)
  · simp at found

/-- A string at the start of a text, and the text behind it. A line feed right behind three quotes
is no part of it. -/
def string? : List Char → Option (List Char × List Char)
  | '"' :: '"' :: '"' :: rest =>
      spell? (unescape? true false ∘ skipLineFeed) (Delimited.splitTriple? '"' true rest)
  | '\'' :: '\'' :: '\'' :: rest =>
      spell? (literal? true ∘ skipLineFeed) (Delimited.splitTriple? '\'' false rest)
  | text => lineString? text

/-- What stands behind a string is shorter than what the string was read from. -/
theorem length_string? {text value rest : List Char}
    (found : string? text = some (value, rest)) : rest.length < text.length := by
  unfold string? at found
  split at found
  · obtain ⟨_, split⟩ := eq_some_of_spell? found
    exact Nat.lt_add_right 3 (Delimited.length_splitTriple? split)
  · obtain ⟨_, split⟩ := eq_some_of_spell? found
    exact Nat.lt_add_right 3 (Delimited.length_splitTriple? split)
  · exact length_lineString? found

/-- A key at the start of a text, with or without quotes, and the text behind it. -/
def key? (text : List Char) : Option (List Char × List Char) :=
  match text.takeWhile isKeyChar with
  | [] => lineString? text
  | key => some (key, text.dropWhile isKeyChar)

/-- What stands behind a key is no longer than what the key was read from. -/
theorem length_key? {text key rest : List Char} (found : key? text = some (key, rest)) :
    rest.length ≤ text.length := by
  unfold key? at found
  split at found
  · exact Nat.le_of_lt (length_lineString? found)
  · obtain ⟨_, rfl⟩ := Prod.mk.injEq .. ▸ Option.some.inj found
    exact (List.dropWhile_suffix isKeyChar).length_le

/-- The text without a comment at its start. -/
def skipComment : List Char → List Char
  | '#' :: rest => rest.dropWhile isPlain
  | text => text

/-- Skipping a comment makes a text no longer. -/
theorem length_skipComment (text : List Char) : (skipComment text).length ≤ text.length := by
  unfold skipComment
  split
  · exact Nat.le_succ_of_le (List.dropWhile_suffix isPlain).length_le
  · exact Nat.le_refl _

/-- The text behind the end of a line, which spaces and a comment may precede. -/
def lineEnd? (text : List Char) : Option (List Char) :=
  match skipComment (skipSpace text) with
  | [] => some []
  | '\n' :: rest => some rest
  | _ => none

/-- What stands behind the end of a line is no longer than what the end was read from, and
shorter unless there was nothing to read. -/
theorem length_lineEnd? {text rest : List Char} (found : lineEnd? text = some rest) :
    rest.length ≤ text.length ∧ (text ≠ [] → rest.length < text.length) := by
  have skipped : (skipComment (skipSpace text)).length ≤ text.length :=
    Nat.le_trans (length_skipComment _) (length_skipSpace text)
  unfold lineEnd? at found
  split at found
  · cases found
    exact ⟨Nat.zero_le _, List.length_pos_iff.2⟩
  next line =>
    cases found
    simp only [line, List.length_cons] at skipped
    omega
  · simp at found

/-- A key with a string on one logical line, and the text behind that line. -/
def assignment? (text : List Char) : Option ((String × String) × List Char) := do
  let (key, afterKey) ← key? text
  match skipSpace afterKey with
  | '=' :: rest => do
      let (value, afterValue) ← string? (skipSpace rest)
      return ((String.ofList key, String.ofList value), ← lineEnd? afterValue)
  | _ => none

/-- What stands behind an assignment is shorter than what the assignment was read from. -/
theorem length_assignment? {text rest : List Char} {entry : String × String}
    (found : assignment? text = some (entry, rest)) : rest.length < text.length := by
  unfold assignment? at found
  obtain ⟨⟨key, afterKey⟩, keyFound, found⟩ := Option.bind_eq_some_iff.1 found
  have keyLength := length_key? keyFound
  have spaceLength := length_skipSpace afterKey
  dsimp only at found
  split at found
  next behind equals =>
    obtain ⟨⟨value, afterValue⟩, valueFound, found⟩ := Option.bind_eq_some_iff.1 found
    obtain ⟨last, endFound, found⟩ := Option.bind_eq_some_iff.1 found
    obtain ⟨_, rfl⟩ := Prod.mk.injEq .. ▸ Option.some.inj found
    have valueLength := length_string? valueFound
    have behindLength := length_skipSpace behind
    have endLength : last.length ≤ afterValue.length := (length_lineEnd? endFound).1
    simp only [equals, List.length_cons] at spaceLength
    omega
  · simp at found

/-- The assignments of a text, in order. -/
def assignments? (text : List Char) : Option (List (String × String)) :=
  if _nonempty : text = [] then some []
  else
    match _blank : lineEnd? text with
    | some rest => assignments? rest
    | none =>
        match _line : assignment? (skipSpace text) with
        | some (entry, rest) => do return entry :: (← assignments? rest)
        | none => none
termination_by text.length
decreasing_by
  · exact (length_lineEnd? _blank).2 _nonempty
  · exact Nat.lt_of_lt_of_le (length_assignment? _line) (length_skipSpace text)

/-- The text without a byte order mark. -/
def skipMark : List Char → List Char
  | '\ufeff' :: rest => rest
  | text => text

/-- The assignments of a document, in order. -/
def read? (text : String) : Option (List (String × String)) := do
  assignments? (← normalizeLineEnds? (skipMark text.toList))

end Document

namespace Naming

/-- The keys of the settings. -/
def keys : List String :=
  ["variable_prefix", "receiver", "label_prefix"]

/-- The naming of a list of settings. A setting that is not made keeps its default, and none is
made twice. -/
def ofSettings? (settings : List (String × String)) : Option Naming :=
  let made := settings.map Prod.fst
  if made.all keys.contains && made.eraseDups.length == made.length then
    let default : Naming := {}
    some
      { variablePrefix := (settings.lookup "variable_prefix").getD default.variablePrefix
        receiver := (settings.lookup "receiver").getD default.receiver
        labelPrefix := (settings.lookup "label_prefix").getD default.labelPrefix }
  else none

/-- The naming that a document configures. -/
def ofDocument? (text : String) : Option Naming := do
  ofSettings? (← Document.read? text)

end Naming

end ScriptLowering
