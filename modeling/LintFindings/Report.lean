/-
Reading reports.

A report is read line by line: each line goes to the matchers in their order,
and the first that recognizes it makes a finding of it.  A report in which
nothing is recognized is kept whole, as one opaque finding, if the fallback is
on.
-/
import LintFindings.Finding
import LintFindings.Format

namespace LintFindings

/-- How reports are read: the matchers in their order, the words for severities, and whether
there is a fallback. -/
structure ReportReader where
  matchers : List Matcher
  severities : SeverityTable
  fallback : Bool

namespace ReportReader

/-- Reads the built-in formats. -/
def standard : ReportReader := ⟨Format.all.map Format.matcher, .plain, true⟩

/-- What the first matcher that recognizes a line makes of it. -/
def matchLine? (r : ReportReader) (line : Text) : Option LineMatch :=
  r.matchers.findSome? (·.matchLine? line)

/-- The finding of a match. -/
def findingOf (severities : SeverityTable) (m : LineMatch) : Finding :=
  Finding.about m.file (severities.resolve m.severity) m.message
    |>.placedAt m.line m.column
    |>.through m.endLine m.endColumn
    |>.withRule m.rule
    |>.withHelpUri m.helpUri

/-- The findings of the lines that are recognized, in their order. -/
def lineFindings (r : ReportReader) (report : Text) : List Finding :=
  (Text.solidLines report).filterMap fun line => (r.matchLine? line).map (findingOf r.severities)

/-- The finding that a whole report is. -/
def opaqueFinding (artifact report : Text) : Finding := .about artifact .warning report

/-- The findings of a report.  The artifact is what an opaque finding is about. -/
def read (r : ReportReader) (report artifact : Text) : List Finding :=
  match Text.trimmed? report with
  | none => []
  | some report =>
    match r.lineFindings report with
    | [] => if r.fallback then [opaqueFinding artifact report] else []
    | findings => findings

end ReportReader

end LintFindings
