/-
Lines that begin with a location.

The text formats write a file, numbers, a severity and a message in a row.
`Located` holds these pieces of a line as they stand in it; `lineMatch?` makes a
match of them, unless a piece that is needed is blank or a number is too large
or written in other digits than ASCII.
-/
import LintFindings.LineMatch
import LintFindings.Text.Decimal
import LintFindings.Unicode.Category

namespace LintFindings

/-- The pieces of a line in a text format. -/
structure Located where
  file : Text
  line : Text
  column : Option Text
  severity : Option Text
  code : Option Text
  rule : Option Text
  message : Text
  deriving DecidableEq, Repr

namespace Text

/-- A number of thirty-two bits. -/
def uint32? (t : Text) : Option UInt32 := (unsigned? (UInt32.size - 1) t).map UInt32.ofNat

/-- The value of a number that may be missing; the outer option is whether it can be read. -/
def optionalUint32? : Option Text → Option (Option UInt32)
  | none => some none
  | some t => (uint32? t).map some

/-- One or more decimal digits of any script, and what follows them. -/
def digitRun? (t : Text) : Option (Text × Text) :=
  match t.takeWhile Unicode.isDecimalDigit with
  | [] => none
  | ds => some (ds, t.dropWhile Unicode.isDecimalDigit)

end Text

namespace Located

/-- The match that the pieces of a line make. -/
def lineMatch? (p : Located) : Option LineMatch := do
  some
    { file := ← Text.trimmed? p.file
      message := ← Text.trimmed? p.message
      line := some (← Text.uint32? p.line)
      column := ← Text.optionalUint32? p.column
      endLine := none
      endColumn := none
      severity := p.severity.bind Text.trimmed?
      rule := (p.rule.bind Text.trimmed?).or (p.code.bind Text.trimmed?)
      helpUri := none }

end Located

end LintFindings
