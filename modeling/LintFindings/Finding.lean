/-
Findings and runs.

A finding is one issue that a linter reports: a file, a severity and a message,
and where known a position, a rule and a page about it.  It is built step by
step, and each step keeps only what makes sense: a column needs a line, an end
needs a start and does not stand before it, rules and pages are not blank.
A run holds the findings of one linter on one target.
-/
import LintFindings.Severity

namespace LintFindings

/-- One issue of a report. -/
structure Finding where
  filePath : Text
  line : Option UInt32
  column : Option UInt32
  endLine : Option UInt32
  endColumn : Option UInt32
  ruleId : Option Text
  helpUri : Option Text
  severity : Severity
  message : Text
  deriving DecidableEq, Repr

namespace Finding

/-- A finding about a whole file. -/
def about (filePath : Text) (severity : Severity) (message : Text) : Finding :=
  { filePath, severity, message, line := none, column := none, endLine := none,
    endColumn := none, ruleId := none, helpUri := none }

/-- Places a finding.  Zeros are no positions, and a column counts only with a line. -/
def placedAt (f : Finding) (line column : Option UInt32) : Finding :=
  let line := line.filter (0 < ·)
  { f with
    line
    column := if line.isSome then column.filter (0 < ·) else none }

/-- Whether an end column may stand with the start and the end line: on one line it does not
stand before the start column. -/
def endColumnFits (f : Finding) (endLine column : UInt32) : Bool :=
  f.line != some endLine || f.column.all (· ≤ column)

/-- Says where a finding ends.  The end line needs a line to start from and does not stand
before it; the end column needs the end line and is no zero. -/
def through (f : Finding) (endLine endColumn : Option UInt32) : Finding :=
  let endLine := endLine.filter fun last => f.line.any (· ≤ last)
  { f with
    endLine
    endColumn :=
      endLine.bind fun last => endColumn.filter fun c => 0 < c && f.endColumnFits last c }

/-- Names the rule behind a finding; a blank one is none. -/
def withRule (f : Finding) (rule : Option Text) : Finding :=
  { f with ruleId := rule.bind Text.trimmed? }

/-- Names a page about the rule; a blank one is none. -/
def withHelpUri (f : Finding) (uri : Option Text) : Finding :=
  { f with helpUri := uri.bind Text.trimmed? }

end Finding

/-- What one linter found on one target. -/
structure Run where
  toolName : Text
  targetLabel : Text
  findings : List Finding
  deriving DecidableEq, Repr

namespace Run

/-- How many findings have a severity. -/
def count (run : Run) (s : Severity) : Nat := run.findings.countP (·.severity = s)

/-- A run passes if it has no errors. -/
def passed (run : Run) : Bool := run.count .error = 0

end Run

end LintFindings
