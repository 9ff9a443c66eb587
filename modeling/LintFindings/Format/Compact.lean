/-
The compact format.

A line of it reads `file: line 1, col 2, Severity - message (rule)`; the rule
may be missing.
-/
import LintFindings.Format.Located

namespace LintFindings.Compact

/-- The format as a regular expression. -/
def pattern : Text :=
  (r"^(?P<file>[^:]+?): line (?P<line>\d+), col (?P<col>\d+), (?P<severity>\w+) - " ++
    r"(?P<message>.+?)(?: \((?P<rule>[^()\s]+)\))?$").toList

/-- The characters that a rule may have. -/
def isRuleChar (c : Char) : Bool := c != '(' && c != ')' && !isBlank c

/-- Cuts a trailing rule in parentheses, with one space before it, off a text; something must
be left. -/
def cutRule? (t : Text) : Option (Text × Text) :=
  match t.reverse with
  | ')' :: back =>
    match back.takeWhile isRuleChar, back.dropWhile isRuleChar with
    | _ :: _, '(' :: ' ' :: c :: front =>
      some ((c :: front).reverse, (back.takeWhile isRuleChar).reverse)
    | _, _ => none
  | _ => none

/-- The message and the rule of a line's last part, which has no line feed in the message. -/
def message? (t : Text) : Option (Text × Option Text) :=
  let (message, rule) := match cutRule? t with
    | some (message, rule) => (message, some rule)
    | none => (t, none)
  if message = [] ∨ message.contains '\n' then none else some (message, rule)

/-- The pieces of a line. -/
def pieces? (t : Text) : Option Located := do
  let file := t.takeWhile (· != ':')
  if file = [] then none
  else
    let t ← Text.after? ": line ".toList (t.dropWhile (· != ':'))
    let (line, t) ← Text.digitRun? t
    let t ← Text.after? ", col ".toList t
    let (column, t) ← Text.digitRun? t
    let t ← Text.after? ", ".toList t
    let severity := t.takeWhile Unicode.isWordChar
    if severity = [] then none
    else
      let t ← Text.after? " - ".toList (t.dropWhile Unicode.isWordChar)
      let (message, rule) ← message? t
      some
        { file, line, column := some column, severity := some severity, code := none, rule
          message }

/-- Recognizes the lines of the compact format. -/
def matcher : Matcher := ⟨"compact".toList, fun t => pieces? t >>= Located.lineMatch?⟩

end LintFindings.Compact
