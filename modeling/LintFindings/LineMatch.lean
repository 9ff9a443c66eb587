/-
What a line of a report says.

A `LineMatch` holds the parts of a recognized line as they were written, and a
`Matcher` recognizes lines of one format.
-/
import LintFindings.Text.Blank

namespace LintFindings

/-- The parts of a recognized line. -/
structure LineMatch where
  file : Text
  line : Option UInt32
  column : Option UInt32
  endLine : Option UInt32
  endColumn : Option UInt32
  severity : Option Text
  rule : Option Text
  helpUri : Option Text
  message : Text
  deriving DecidableEq, Repr

/-- Recognizes the lines of one format. -/
structure Matcher where
  name : Text
  matchLine? : Text → Option LineMatch

end LintFindings
