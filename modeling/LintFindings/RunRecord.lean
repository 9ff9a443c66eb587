/-
Findings and runs as JSON records.

A finding is a record of nine fields and a run one of three.  What a finding
does not have is written as null; reading takes a missing field for null too.
-/
import LintFindings.Sarif.Encoding

namespace LintFindings

/-- A value that may be missing, with null for none. -/
def Json.orNull {α : Type} (toJson : α → Json) : Option α → Json
  | some v => toJson v
  | none => .null

namespace Finding

/-- A finding as JSON. -/
def toJson (f : Finding) : Json :=
  .record
    [("file_path".toList, .text f.filePath),
      ("line".toList, .orNull Sarif.positionJson f.line),
      ("column".toList, .orNull Sarif.positionJson f.column),
      ("end_line".toList, .orNull Sarif.positionJson f.endLine),
      ("end_column".toList, .orNull Sarif.positionJson f.endColumn),
      ("rule_id".toList, .orNull .text f.ruleId),
      ("help_uri".toList, .orNull .text f.helpUri),
      ("severity".toList, f.severity.toJson),
      ("message".toList, .text f.message)]

/-- Reads a finding. -/
def ofJson? (v : Json) : Option Finding := do
  let fields ← v.record? (["file_path", "line", "column", "end_line", "end_column", "rule_id",
    "help_uri", "severity", "message"].map String.toList) 9
  some
    { filePath := ← Json.required? fields "file_path" Json.text?
      line := ← Json.optional? fields "line" Json.uint32?
      column := ← Json.optional? fields "column" Json.uint32?
      endLine := ← Json.optional? fields "end_line" Json.uint32?
      endColumn := ← Json.optional? fields "end_column" Json.uint32?
      ruleId := ← Json.optional? fields "rule_id" Json.text?
      helpUri := ← Json.optional? fields "help_uri" Json.text?
      severity := ← Json.required? fields "severity" Severity.ofJson?
      message := ← Json.required? fields "message" Json.text? }

end Finding

namespace Run

/-- A run as JSON. -/
def toJson (r : Run) : Json :=
  .record
    [("tool_name".toList, .text r.toolName),
      ("target_label".toList, .text r.targetLabel),
      ("findings".toList, .array (r.findings.map Finding.toJson))]

/-- Reads a run. -/
def ofJson? (v : Json) : Option Run := do
  let fields ← v.record? (["tool_name", "target_label", "findings"].map String.toList) 3
  some
    { toolName := ← Json.required? fields "tool_name" Json.text?
      targetLabel := ← Json.required? fields "target_label" Json.text?
      findings := ← Json.required? fields "findings" (Json.list? Finding.ofJson?) }

end Run

end LintFindings
