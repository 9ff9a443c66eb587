/-
Diagnostics as JSON objects, one to a line.

A diagnostic has a message, a level, and where known a code, spans of source
and children.  It stands alone on its line or inside an envelope that names the
reason for it.  The span that is marked primary, or else the first one, says
where it is; a child that helps may name a page to visit.
-/
import LintFindings.LineMatch
import LintFindings.Json.Reader

namespace LintFindings

/-- A part of a source file. -/
structure Span where
  fileName : Text
  lineStart : UInt32
  columnStart : UInt32
  lineEnd : Option UInt32
  columnEnd : Option UInt32
  isPrimary : Bool
  deriving DecidableEq, Repr

/-- A remark below a diagnostic. -/
structure Remark where
  message : Text
  level : Text
  deriving DecidableEq, Repr

/-- What a compiler has to say about a source file. -/
structure Diagnostic where
  message : Text
  level : Text
  code : Option Text
  spans : List Span
  children : List Remark
  deriving DecidableEq, Repr

namespace Diagnostic

/-! ### Reading -/

/-- Reads a span. -/
def spanOfJson? (v : Json) : Option Span := do
  let fields ← v.record? (["file_name", "line_start", "column_start", "line_end", "column_end",
    "is_primary"].map String.toList) 3
  some
    { fileName := ← Json.required? fields "file_name" Json.text?
      lineStart := ← Json.required? fields "line_start" Json.uint32?
      columnStart := ← Json.required? fields "column_start" Json.uint32?
      lineEnd := ← Json.optional? fields "line_end" Json.uint32?
      columnEnd := ← Json.optional? fields "column_end" Json.uint32?
      isPrimary := ← Json.defaulted? fields "is_primary" false Json.bool? }

/-- Reads a remark. -/
def remarkOfJson? (v : Json) : Option Remark := do
  let fields ← v.record? (["message", "level"].map String.toList) 2
  some
    { message := ← Json.required? fields "message" Json.text?
      level := ← Json.required? fields "level" Json.text? }

/-- Reads a code. -/
def codeOfJson? (v : Json) : Option Text := do
  let fields ← v.record? ["code".toList] 1
  Json.required? fields "code" Json.text?

/-- Reads a diagnostic. -/
def ofJson? (v : Json) : Option Diagnostic := do
  let fields ← v.record? (["message", "level", "code", "spans", "children"].map String.toList) 3
  some
    { message := ← Json.required? fields "message" Json.text?
      level := ← Json.required? fields "level" Json.text?
      code := ← Json.optional? fields "code" codeOfJson?
      spans := ← Json.defaulted? fields "spans" [] (Json.list? spanOfJson?)
      children := ← Json.defaulted? fields "children" [] (Json.list? remarkOfJson?) }

/-- Reads a diagnostic in an envelope. -/
def ofEnvelope? (v : Json) : Option Diagnostic := do
  let fields ← v.record? (["reason", "message"].map String.toList) 2
  let _ ← Json.required? fields "reason" Json.text?
  Json.required? fields "message" ofJson?

/-- How deep the value of a line may be nested. -/
def maxDepth : Nat := 127

/-- The diagnostic on a line.  Everything on the line has to be sound, whether it is part of the
diagnostic or not. -/
def ofLine? (t : Text) : Option Diagnostic := do
  if t.head? ≠ some '{' then none
  else
    let v ← Json.read? t
    if v.depth ≤ maxDepth && v.isSound then (ofEnvelope? v).or (ofJson? v) else none

/-! ### Matching -/

/-- What stands in front of the address of a page. -/
def visitMark : Text := "for further information visit ".toList

/-- The page that a remark names. -/
def Remark.page? (r : Remark) : Option Text :=
  if r.level = "help".toList then (Text.after? visitMark r.message).bind (Text.words · |>.head?)
  else none

/-- The first page that a child names. -/
def helpUri (d : Diagnostic) : Option Text := d.children.findSome? Remark.page?

/-- The span that says where the diagnostic is. -/
def mainSpan? (d : Diagnostic) : Option Span := (d.spans.find? (·.isPrimary)).or d.spans.head?

/-- The match of a diagnostic that is about a named file. -/
def lineMatch? (d : Diagnostic) : Option LineMatch := do
  let span ← d.mainSpan?
  let _ ← Text.trimmed? span.fileName
  some
    { file := span.fileName
      line := some span.lineStart
      column := some span.columnStart
      endLine := span.lineEnd
      endColumn := span.columnEnd
      severity := some d.level
      rule := d.code
      helpUri := d.helpUri
      message := d.message }

/-- Recognizes diagnostics. -/
def matcher : Matcher := ⟨"rustc-json".toList, fun t => ofLine? t >>= lineMatch?⟩

end Diagnostic

end LintFindings
