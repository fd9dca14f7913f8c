import SourceView.Text.Hidden

/-! Texts in double quotes, as messages show what they were given.
The quote and the backslash stand behind a backslash, line ends, tabs and NUL have letters of their
own, and a character that would not show is written by its number.
-/

namespace SourceView.Text.Quoted

/-- How a quoted text writes a character. -/
def spell (c : Char) : List Char :=
  match c with
  | '"' => ['\\', '"']
  | '\\' => ['\\', '\\']
  | '\n' => ['\\', 'n']
  | '\r' => ['\\', 'r']
  | '\t' => ['\\', 't']
  | '\x00' => ['\\', '0']
  | c => if isHidden c then ['\\', 'u', '{'] ++ Nat.toDigits 16 c.toNat ++ ['}'] else [c]

/-- A text in double quotes. -/
def encode (text : String) : String :=
  .ofList (['"'] ++ text.toList.flatMap spell ++ ['"'])

end SourceView.Text.Quoted
