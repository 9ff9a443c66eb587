/-
Texts shown between quotes.

`quoted` writes a text so that every character of it can be seen: quotes and
backslashes are escaped, and so is what would not be shown.
-/
import LintFindings.Unicode.Category

namespace LintFindings.Text

/-- A character inside quotes. -/
def shown (c : Char) : Text :=
  match c with
  | '\x00' => ['\\', '0']
  | '\t' => ['\\', 't']
  | '\r' => ['\\', 'r']
  | '\n' => ['\\', 'n']
  | '"' => ['\\', '"']
  | '\\' => ['\\', '\\']
  | c =>
    if Unicode.isShown c then [c]
    else ['\\', 'u', '{'] ++ Nat.toDigits 16 c.toNat ++ ['}']

/-- A text between quotes. -/
def quoted (t : Text) : Text := '"' :: t.flatMap shown ++ ['"']

end LintFindings.Text
