/-
Decimal numbers as texts.

`decimal` writes a natural number; `unsigned?` reads one back and refuses what
lies above a limit.
-/
import LintFindings.Text.Blank

namespace LintFindings.Text

/-- The decimal digits of a number, without leading zeros. -/
def decimal (n : Nat) : Text := Nat.toDigits 10 n

/-- The number that a row of decimal digits stands for. -/
def digitsValue (t : Text) : Nat := Nat.ofDigitChars 10 t 0

/-- The value of one or more ASCII digits, at most `limit`; a plus sign may stand in front. -/
def unsigned? (limit : Nat) (t : Text) : Option Nat :=
  let ds := match t with
    | '+' :: ds => ds
    | ds => ds
  if ds ≠ [] ∧ ds.all Char.isDigit then
    let n := digitsValue ds
    if n ≤ limit then some n else none
  else none

end LintFindings.Text
