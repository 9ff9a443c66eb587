/-
Configurations.

A configuration says which patterns and formats reports are read with, what
words name severities, and how documents are written.  `Config.reader?` makes a
report reader of it, or finds the first thing that cannot be used: patterns
come before formats, and both before the check that anything is left to do.
-/
import LintFindings.Report
import LintFindings.Pattern

namespace LintFindings

/-- A pattern by its name and its expression. -/
structure PatternSpec where
  name : Text
  regex : Text
  deriving DecidableEq, Repr

/-- What can be set about reading reports and writing documents. -/
structure Config where
  formats : List Text
  fallback : Bool
  patterns : List PatternSpec
  aliases : TextMap Severity
  pretty : Bool
  informationUri : Option Text
  deriving DecidableEq, Repr

/-- Why no reader can be made of a configuration. -/
inductive ConfigError where
  | pattern (e : PatternError)
  | unknownFormat (name : Text)
  | nothingToRead
  deriving DecidableEq, Repr

namespace Config

/-- What counts where nothing is set. -/
def standard : Config :=
  { formats := Format.all.map Format.name
    fallback := true
    patterns := []
    aliases := .empty
    pretty := true
    informationUri := none }

/-- The matcher of a pattern. -/
def patternMatcher? (engine : RegexEngine) (p : PatternSpec) : Except ConfigError Matcher :=
  (Pattern.matcher? p.name p.regex engine).mapError .pattern

/-- The matcher of a format by its name. -/
def formatMatcher? (name : Text) : Except ConfigError Matcher :=
  match Format.ofName? name with
  | some f => .ok f.matcher
  | none => .error (.unknownFormat name)

/-- The report reader of a configuration, whose patterns an engine compiles. -/
def reader? (c : Config) (engine : RegexEngine := .builtin) : Except ConfigError ReportReader := do
  let patterns ← c.patterns.mapM (patternMatcher? engine)
  let formats ← c.formats.mapM formatMatcher?
  let matchers := patterns ++ formats
  if matchers.isEmpty && !c.fallback then .error .nothingToRead
  else .ok ⟨matchers, .ofAliases c.aliases.entries, c.fallback⟩

end Config

end LintFindings
