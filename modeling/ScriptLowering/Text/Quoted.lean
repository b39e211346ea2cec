/-!
# Quoted text

A text between single quotes. Both quote characters, the backslash and the null character are
written with a backslash in front, so the first bare quote closes the text.
-/

namespace ScriptLowering

namespace Quoted

/-- The spelling of one character inside quotes. -/
def escapeChar : Char → List Char
  | '\'' => ['\\', '\'']
  | '"' => ['\\', '"']
  | '\\' => ['\\', '\\']
  | '\x00' => ['\\', '0']
  | letter => [letter]

/-- The spelling of a text inside quotes. -/
def escape (text : List Char) : List Char :=
  text.flatMap escapeChar

/-- The spelling of a text with its quotes. -/
def quote (text : List Char) : List Char :=
  '\'' :: (escape text ++ ['\''])

end Quoted

end ScriptLowering
