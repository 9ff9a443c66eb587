/-
SARIF documents.

`Document` holds the part of the SARIF 2.1.0 object graph that a report needs:
runs with a tool, its rules and the results.  `Document.ofRun` makes the
document of one run.  Its rules are the rules of the findings in the order of
their ids, each with the first help page that a finding names for it; a finding
without a rule is attributed to the tool itself.
-/
import LintFindings.Finding
import LintFindings.Text.Table

namespace LintFindings.Sarif

/-- The version of the format. -/
def version : Text := "2.1.0".toList

/-- The schema of the format. -/
def schema : Text :=
  "https://schemastore.azurewebsites.net/schemas/json/sarif-2.1.0.json".toList

/-- A rule of a tool. -/
structure Rule where
  id : Text
  helpUri : Option Text
  deriving DecidableEq, Repr

/-- Lines and columns that a result is about. -/
structure Region where
  startLine : UInt32
  startColumn : Option UInt32
  endLine : Option UInt32
  endColumn : Option UInt32
  deriving DecidableEq, Repr

/-- A file, or a region of it. -/
structure Location where
  uri : Text
  region : Option Region
  deriving DecidableEq, Repr

/-- How serious a result is. -/
inductive Level where
  | error
  | warning
  | note
  | none
  deriving DecidableEq, Repr

/-- The level of a severity. -/
def Level.ofSeverity : Severity → Level
  | .error => error
  | .warning => warning
  | .note => note
  | .none => none

/-- One result of a run.  The index is the place of its rule among the rules of the tool. -/
structure Result where
  ruleId : Text
  ruleIndex : UInt64
  level : Level
  message : Text
  locations : List Location
  deriving DecidableEq, Repr

/-- The tool of a run. -/
structure Driver where
  name : Text
  informationUri : Option Text
  rules : List Rule
  deriving DecidableEq, Repr

/-- What one tool reported on one target; the target is named by the id. -/
structure DocumentRun where
  driver : Driver
  automationId : Text
  results : List Result
  deriving DecidableEq, Repr

/-- A document. -/
structure Document where
  schema : Text
  version : Text
  runs : List DocumentRun
  deriving DecidableEq, Repr

/-- The rule that a finding is attributed to. -/
def effectiveRule (toolName : Text) (f : Finding) : Text := f.ruleId.getD toolName

/-- Enters the rule of a finding: a page that is known stays, else the finding's page counts. -/
def enter (toolName : Text) (rules : TextMap (Option Text)) (f : Finding) :
    TextMap (Option Text) :=
  rules.upsert (effectiveRule toolName f) fun known => known.join.or f.helpUri

/-- The rules of a run's findings, each with the first page that a finding names for it. -/
def catalogue (run : Run) : TextMap (Option Text) := run.findings.foldl (enter run.toolName) .empty

/-- The rules of a catalogue. -/
def rulesOf (known : TextMap (Option Text)) : List Rule :=
  known.map fun (id, helpUri) => { id, helpUri }

/-- The places of the rules of a catalogue. -/
def places (known : TextMap (Option Text)) : TextMap Nat :=
  TextMap.ofPairs (TextMap.keys known.entries).zipIdx

/-- The region of a finding, which only one with a line has. -/
def regionOf (f : Finding) : Option Region :=
  f.line.map fun startLine =>
    { startLine, startColumn := f.column, endLine := f.endLine, endColumn := f.endColumn }

/-- The result that states a finding.  A rule without a place would get one behind all others. -/
def resultOf (toolName : Text) (places : TextMap Nat) (f : Finding) : Result :=
  let ruleId := effectiveRule toolName f
  { ruleId
    ruleIndex := UInt64.ofNat ((places.lookup ruleId).getD places.entries.length)
    level := .ofSeverity f.severity
    message := f.message
    locations := [{ uri := f.filePath, region := regionOf f }] }

/-- The document of one run, with a page about the tool if there is one. -/
def Document.ofRun (run : Run) (informationUri : Option Text) : Document :=
  let known := catalogue run
  { schema := Sarif.schema
    version := Sarif.version
    runs :=
      [{ driver := { name := run.toolName, informationUri, rules := rulesOf known }
         automationId := run.targetLabel
         results := run.findings.map (resultOf run.toolName (places known)) }] }

end LintFindings.Sarif
