/-
Patterns for lines.

A pattern is a regular expression whose groups name the parts of a line.  It
needs groups for the file and the message; the others are `line`, `col` or
`column`, `end_line`, `end_col` or `end_column`, `severity`, and `rule` or
`code`.  What is a regular expression, and what it finds in a line, is up to the
engine that compiles it.
-/
import LintFindings.LineMatch
import LintFindings.Format.Located
import LintFindings.Regex.Engine

namespace LintFindings

/-- Why a pattern cannot be used. -/
inductive PatternError where
  /-- It is no regular expression. -/
  | malformed (name : Text)
  /-- The expression takes too much room. -/
  | tooLarge (name : Text)
  /-- A group that is needed is missing. -/
  | missingGroup (name group : Text)
  deriving DecidableEq, Repr

/-- What a pattern is refused for if the engine does not compile its expression. -/
def RegexError.inPattern (name : Text) : RegexError → PatternError
  | malformed => .malformed name
  | tooLarge => .tooLarge name

namespace Pattern

/-- The groups that a pattern needs. -/
def requiredGroups : List Text := ["file".toList, "message".toList]

/-- The trimmed text of a group that took part and is not blank. -/
def group? (groups : Text → Option Text) (name : String) : Option Text :=
  (groups name.toList).bind Text.trimmed?

/-- The number in a group; the outer option is whether it can be read, the inner one whether the
group took part. -/
def number? (groups : Text → Option Text) (name : String) : Option (Option UInt32) :=
  Text.optionalUint32? (groups name.toList)

/-- The match that the groups of a pattern make. -/
def lineMatch? (groups : Text → Option Text) : Option LineMatch := do
  let file ← group? groups "file"
  let message ← group? groups "message"
  let line ← number? groups "line"
  let col ← number? groups "col"
  let column ← number? groups "column"
  let endLine ← number? groups "end_line"
  let endCol ← number? groups "end_col"
  let endColumn ← number? groups "end_column"
  some
    { file, message, line, endLine
      column := col.or column
      endColumn := endCol.or endColumn
      severity := group? groups "severity"
      rule := (group? groups "rule").or (group? groups "code")
      helpUri := none }

/-- The expression of a pattern, if it has the groups that are needed. -/
def compile (name regex : Text) (engine : RegexEngine := .builtin) :
    Except PatternError CompiledRegex :=
  match engine.compile? regex with
  | .error e => .error (e.inPattern name)
  | .ok r =>
    match requiredGroups.find? fun g => !r.groupNames.contains g with
    | some group => .error (.missingGroup name group)
    | none => .ok r

/-- Recognizes the lines that an expression finds a match in. -/
def matcher (name : Text) (r : CompiledRegex) : Matcher :=
  ⟨name, fun t => r.captures? t >>= lineMatch?⟩

/-- Recognizes the lines of a pattern. -/
def matcher? (name regex : Text) (engine : RegexEngine := .builtin) : Except PatternError Matcher :=
  (compile name regex engine).map (matcher name)

end Pattern

end LintFindings
