/-!
# Delimited text

The text up to a closing quote, which a backslash in front of it may keep from closing.
-/

namespace ScriptLowering

namespace Delimited

/-- The text up to the first closing quote, and the text behind that quote. With `escaping`, a
backslash and the character behind it are taken together. -/
def split? (quote : Char) (escaping : Bool) : List Char → Option (List Char × List Char)
  | [] => none
  | [letter] => if letter = quote then some ([], []) else none
  | letter :: next :: rest =>
      if letter = quote then some ([], next :: rest)
      else if escaping ∧ letter = '\\' then
        (split? quote escaping rest).map fun (inside, behind) => (letter :: next :: inside, behind)
      else
        (split? quote escaping (next :: rest)).map fun (inside, behind) =>
          (letter :: inside, behind)

/-- What stands behind a delimited text is shorter than what the text was read from. -/
theorem length_split? {quote : Char} {escaping : Bool} {text inside behind : List Char}
    (found : split? quote escaping text = some (inside, behind)) :
    behind.length < text.length := by
  fun_induction split? quote escaping text generalizing inside with
  | case1 => simp at found
  | case2 =>
      obtain ⟨_, rfl⟩ : [] = inside ∧ [] = behind := by simpa using found
      simp
  | case3 => simp at found
  | case4 next rest =>
      obtain ⟨_, rfl⟩ : [] = inside ∧ next :: rest = behind := by simpa using found
      simp
  | case5 letter next rest _ _ shorter =>
      obtain ⟨⟨body, _⟩, split, equal⟩ := Option.map_eq_some_iff.1 found
      obtain ⟨_, rfl⟩ := Prod.mk.injEq .. ▸ equal
      have := shorter split
      simp only [List.length_cons]
      omega
  | case6 letter next rest _ _ shorter =>
      obtain ⟨⟨body, _⟩, split, equal⟩ := Option.map_eq_some_iff.1 found
      obtain ⟨_, rfl⟩ := Prod.mk.injEq .. ▸ equal
      have := shorter split
      simp only [List.length_cons] at this ⊢
      omega

/-- The text up to the first run of three closing quotes, and the text behind that run. Up to two
further quotes in the run belong to the text. -/
def splitTriple? (quote : Char) (escaping : Bool) : List Char → Option (List Char × List Char)
  | first :: second :: third :: rest =>
      if first = quote ∧ second = quote ∧ third = quote then
        let extra := rest.takeWhile (· == quote)
        if extra.length ≤ 2 then some (extra, rest.dropWhile (· == quote)) else none
      else if escaping ∧ first = '\\' then
        (splitTriple? quote escaping (third :: rest)).map fun (inside, behind) =>
          (first :: second :: inside, behind)
      else
        (splitTriple? quote escaping (second :: third :: rest)).map fun (inside, behind) =>
          (first :: inside, behind)
  | _ => none

/-- What stands behind a text in triple quotes is shorter than what the text was read from. -/
theorem length_splitTriple? {quote : Char} {escaping : Bool} {text inside behind : List Char}
    (found : splitTriple? quote escaping text = some (inside, behind)) :
    behind.length < text.length := by
  fun_induction splitTriple? quote escaping text generalizing inside with
  | case1 first second third rest _ _ =>
      obtain ⟨_, rfl⟩ := Prod.mk.injEq .. ▸ Option.some.inj found
      have := (List.dropWhile_suffix (· == quote) (l := rest)).length_le
      simp only [List.length_cons]
      omega
  | case2 => simp at found
  | case3 first second third rest _ _ shorter =>
      obtain ⟨⟨body, _⟩, split, equal⟩ := Option.map_eq_some_iff.1 found
      obtain ⟨_, rfl⟩ := Prod.mk.injEq .. ▸ equal
      have := shorter split
      simp only [List.length_cons] at this ⊢
      omega
  | case4 first second third rest _ _ shorter =>
      obtain ⟨⟨body, _⟩, split, equal⟩ := Option.map_eq_some_iff.1 found
      obtain ⟨_, rfl⟩ := Prod.mk.injEq .. ▸ equal
      have := shorter split
      simp only [List.length_cons] at this ⊢
      omega
  | case5 => simp at found

end Delimited

end ScriptLowering
