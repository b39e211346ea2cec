import ScriptLowering.Literal.Basic
import Mathlib.Data.List.Basic

/-!
# Quoted text ends where it should

A reader of lowered code finds the end of a quoted text by looking for a bare quote, one that no
backslash stands in front of. The central theorem is that this is the quote that closes the text,
whatever the text is and whatever follows it, and that the reader gets the text back.
-/

namespace ScriptLowering

namespace Quoted

/-- What stands in front of the first bare quote, and what stands behind it. A backslash is taken
together with the character behind it. -/
def scan? : List Char → Option (List Char × List Char)
  | '\\' :: letter :: rest => (scan? rest).map fun (read, after) => ('\\' :: letter :: read, after)
  | '\'' :: rest => some ([], rest)
  | letter :: rest => (scan? rest).map fun (read, after) => (letter :: read, after)
  | [] => none

/-- The character that is written as a backslash and the given one. -/
def marked? : Char → Option Char
  | '\'' => some '\''
  | '"' => some '"'
  | '\\' => some '\\'
  | '0' => some '\x00'
  | _ => none

/-- The text with every escape undone. A backslash that begins no escape stays. -/
def unescape : List Char → List Char
  | '\\' :: mark :: rest =>
      match marked? mark with
      | some letter => letter :: unescape rest
      | none => '\\' :: mark :: unescape rest
  | letter :: rest => letter :: unescape rest
  | [] => []

variable {letter : Char}

/-- A character is written as a backslash and its mark, or as itself if it is neither a backslash
nor a quote. -/
theorem escapeChar_cases (letter : Char) :
    (∃ mark, escapeChar letter = ['\\', mark] ∧ marked? mark = some letter) ∨
      escapeChar letter = [letter] ∧ letter ≠ '\\' ∧ letter ≠ '\'' := by
  unfold escapeChar
  split
  · exact .inl ⟨_, rfl, rfl⟩
  · exact .inl ⟨_, rfl, rfl⟩
  · exact .inl ⟨_, rfl, rfl⟩
  · exact .inl ⟨_, rfl, rfl⟩
  · exact .inr ⟨rfl, by assumption, by assumption⟩

theorem scan?_of_plain (no_backslash : letter ≠ '\\') (no_quote : letter ≠ '\'')
    (rest : List Char) :
    scan? (letter :: rest) = (scan? rest).map fun (read, after) => (letter :: read, after) := by
  rw [scan?]
  · exact fun _ _ backslash => absurd backslash no_backslash
  · exact no_quote

theorem unescape_of_plain (no_backslash : letter ≠ '\\') (rest : List Char) :
    unescape (letter :: rest) = letter :: unescape rest := by
  rw [unescape]
  exact fun _ _ backslash => absurd backslash no_backslash

@[simp]
theorem scan?_escape (text after : List Char) :
    scan? (escape text ++ '\'' :: after) = some (escape text, after) := by
  induction text with
  | nil => rfl
  | cons letter rest induction =>
      rw [escape] at induction ⊢
      rw [List.flatMap_cons, List.append_assoc]
      rcases escapeChar_cases letter with ⟨mark, spelled, -⟩ | ⟨spelled, no_backslash, no_quote⟩
      · simp [spelled, scan?, induction]
      · simp [spelled, scan?_of_plain no_backslash no_quote, induction]

@[simp]
theorem unescape_escape (text : List Char) : unescape (escape text) = text := by
  induction text with
  | nil => rfl
  | cons letter rest induction =>
      rw [escape] at induction ⊢
      rw [List.flatMap_cons]
      rcases escapeChar_cases letter with ⟨mark, spelled, marked⟩ | ⟨spelled, no_backslash, -⟩
      · simp [spelled, unescape, marked, induction]
      · simp [spelled, unescape_of_plain no_backslash, induction]

theorem escape_injective : Function.Injective escape :=
  Function.LeftInverse.injective unescape_escape

end Quoted

namespace Literal

theorem toList_render_text_append (value after : String) :
    (render (.text value) ++ after).toList =
      '\'' :: (Quoted.escape value.toList ++ '\'' :: after.toList) := by
  rw [String.toList_append, render, renderText, String.toList_ofList, Quoted.quote,
    List.cons_append, List.append_assoc, List.singleton_append]

/-- A text literal ends at its closing quote whatever follows it, and spells its text without loss.
So different texts are spelled differently, and a literal can be told from what follows it. -/
theorem render_text_is_self_delimiting (value after : String) :
    (render (.text value) ++ after).toList =
        '\'' :: (Quoted.escape value.toList ++ '\'' :: after.toList) ∧
      Quoted.scan? (Quoted.escape value.toList ++ '\'' :: after.toList) =
        some (Quoted.escape value.toList, after.toList) ∧
      Quoted.unescape (Quoted.escape value.toList) = value.toList ∧
      Function.Injective Quoted.escape ∧
      ∀ other behind : String,
        render (.text value) ++ after = render (.text other) ++ behind ↔
          value = other ∧ after = behind := by
  refine ⟨toList_render_text_append value after, Quoted.scan?_escape _ _,
    Quoted.unescape_escape _, Quoted.escape_injective, fun other behind => ⟨?_, ?_⟩⟩
  · intro same
    have bodies := congrArg String.toList same
    rw [toList_render_text_append, toList_render_text_append, List.cons.injEq] at bodies
    have scanned := congrArg Quoted.scan? bodies.2
    rw [Quoted.scan?_escape, Quoted.scan?_escape, Option.some.injEq, Prod.mk.injEq] at scanned
    obtain ⟨escaped, rest⟩ := scanned
    exact ⟨String.toList_inj.mp (Quoted.escape_injective escaped), String.toList_inj.mp rest⟩
  · rintro ⟨rfl, rfl⟩
    rfl

end Literal

end ScriptLowering
