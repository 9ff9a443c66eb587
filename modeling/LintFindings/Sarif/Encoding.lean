/-
Documents as JSON.

`Document.toJson` writes the fields in the order of the specification and
leaves out what is not there; `Document.ofJson?` reads them back in any order.
`Document.write` and `Document.read?` go all the way to texts.
-/
import LintFindings.Sarif.Document
import LintFindings.Json.Reader
import LintFindings.Json.Writer

namespace LintFindings

namespace Severity

/-- A severity as JSON. -/
def toJson (s : Severity) : Json := .text s.name

/-- Reads a severity. -/
def ofJson? : Json → Option Severity := Json.variant? ofName?

end Severity

namespace Sarif

/-- A field, written only where it has a value. -/
def fieldIf {α : Type} (name : String) (toJson : α → Json) (value : Option α) :
    List (Text × Json) :=
  (value.map fun v => (name.toList, toJson v)).toList

/-- A field that is always written. -/
def field (name : String) (value : Json) : List (Text × Json) := [(name.toList, value)]

/-- A number of thirty-two bits as JSON. -/
def positionJson (n : UInt32) : Json := .nat n.toNat

namespace Level

/-- The name of a level. -/
def name : Level → Text
  | error => "error".toList
  | warning => "warning".toList
  | note => "note".toList
  | none => "none".toList

/-- The level of a name. -/
def ofName? (t : Text) : Option Level := [error, warning, note, none].find? (·.name = t)

/-- A level as JSON. -/
def toJson (l : Level) : Json := .text l.name

/-- Reads a level. -/
def ofJson? : Json → Option Level := Json.variant? ofName?

end Level

/-! ### Writing -/

/-- A rule as JSON. -/
def Rule.toJson (r : Rule) : Json :=
  .record (field "id" (.text r.id) ++ fieldIf "helpUri" .text r.helpUri)

/-- A region as JSON. -/
def Region.toJson (r : Region) : Json :=
  .record (field "startLine" (positionJson r.startLine) ++
    fieldIf "startColumn" positionJson r.startColumn ++
    fieldIf "endLine" positionJson r.endLine ++
    fieldIf "endColumn" positionJson r.endColumn)

/-- A location as JSON. -/
def Location.toJson (l : Location) : Json :=
  .record (field "physicalLocation" (.record
    (field "artifactLocation" (.record (field "uri" (.text l.uri))) ++
      fieldIf "region" Region.toJson l.region)))

/-- A result as JSON. -/
def Result.toJson (r : Result) : Json :=
  .record (field "ruleId" (.text r.ruleId) ++
    field "ruleIndex" (.nat r.ruleIndex.toNat) ++
    field "level" r.level.toJson ++
    field "message" (.record (field "text" (.text r.message))) ++
    field "locations" (.array (r.locations.map Location.toJson)))

/-- A tool as JSON.  A tool without rules does not say so. -/
def Driver.toJson (d : Driver) : Json :=
  .record (field "name" (.text d.name) ++
    fieldIf "informationUri" .text d.informationUri ++
    fieldIf "rules" (fun rs => .array (rs.map Rule.toJson))
      (if d.rules = [] then none else some d.rules))

/-- A run as JSON. -/
def DocumentRun.toJson (r : DocumentRun) : Json :=
  .record (field "tool" (.record (field "driver" r.driver.toJson)) ++
    field "automationDetails" (.record (field "id" (.text r.automationId))) ++
    field "results" (.array (r.results.map Result.toJson)))

/-- A document as JSON. -/
def Document.toJson (d : Document) : Json :=
  .record (field "$schema" (.text d.schema) ++
    field "version" (.text d.version) ++
    field "runs" (.array (d.runs.map DocumentRun.toJson)))

/-! ### Reading -/

/-- The names of a record's fields. -/
def names (ns : List String) : List Text := ns.map String.toList

/-- Reads a record that has one field. -/
def wrapped? {α : Type} (name : String) (value? : Json → Option α) (v : Json) : Option α := do
  let fields ← v.record? (names [name]) 1
  Json.required? fields name value?

/-- Reads a rule. -/
def Rule.ofJson? (v : Json) : Option Rule := do
  let fields ← v.record? (names ["id", "helpUri"]) 1
  some
    { id := ← Json.required? fields "id" Json.text?
      helpUri := ← Json.optional? fields "helpUri" Json.text? }

/-- Reads a region. -/
def Region.ofJson? (v : Json) : Option Region := do
  let fields ← v.record? (names ["startLine", "startColumn", "endLine", "endColumn"]) 1
  some
    { startLine := ← Json.required? fields "startLine" Json.uint32?
      startColumn := ← Json.optional? fields "startColumn" Json.uint32?
      endLine := ← Json.optional? fields "endLine" Json.uint32?
      endColumn := ← Json.optional? fields "endColumn" Json.uint32? }

/-- Reads the place inside a location. -/
def Location.ofPhysical? (v : Json) : Option Location := do
  let fields ← v.record? (names ["artifactLocation", "region"]) 1
  some
    { uri := ← Json.required? fields "artifactLocation" (wrapped? "uri" Json.text?)
      region := ← Json.optional? fields "region" Region.ofJson? }

/-- Reads a location. -/
def Location.ofJson? (v : Json) : Option Location := wrapped? "physicalLocation" ofPhysical? v

/-- Reads a result. -/
def Result.ofJson? (v : Json) : Option Result := do
  let fields ← v.record? (names ["ruleId", "ruleIndex", "level", "message", "locations"]) 5
  some
    { ruleId := ← Json.required? fields "ruleId" Json.text?
      ruleIndex := ← Json.required? fields "ruleIndex" Json.uint64?
      level := ← Json.required? fields "level" Level.ofJson?
      message := ← Json.required? fields "message" (wrapped? "text" Json.text?)
      locations := ← Json.required? fields "locations" (Json.list? Location.ofJson?) }

/-- Reads a tool. -/
def Driver.ofJson? (v : Json) : Option Driver := do
  let fields ← v.record? (names ["name", "informationUri", "rules"]) 1
  some
    { name := ← Json.required? fields "name" Json.text?
      informationUri := ← Json.optional? fields "informationUri" Json.text?
      rules := ← Json.defaulted? fields "rules" [] (Json.list? Rule.ofJson?) }

/-- Reads a run. -/
def DocumentRun.ofJson? (v : Json) : Option DocumentRun := do
  let fields ← v.record? (names ["tool", "automationDetails", "results"]) 3
  some
    { driver := ← Json.required? fields "tool" (wrapped? "driver" Driver.ofJson?)
      automationId := ← Json.required? fields "automationDetails" (wrapped? "id" Json.text?)
      results := ← Json.required? fields "results" (Json.list? Result.ofJson?) }

/-- Reads a document. -/
def Document.ofJson? (v : Json) : Option Document := do
  let fields ← v.record? (names ["$schema", "version", "runs"]) 3
  some
    { schema := ← Json.required? fields "$schema" Json.text?
      version := ← Json.required? fields "version" Json.text?
      runs := ← Json.required? fields "runs" (Json.list? DocumentRun.ofJson?) }

/-! ### Texts -/

/-- The text of a document, indented or on one line. -/
def Document.write (d : Document) (pretty : Bool) : Text :=
  Json.write (.ofPretty pretty) d.toJson

/-- The document that a text holds. -/
def Document.read? (t : Text) : Option Document := Json.read? t >>= Document.ofJson?

end Sarif

end LintFindings
