/-
Reading configurations from TOML.

A document has three sections, each a table: what the sections do not say
keeps its standard value, and what they say has to be known and of the right
kind.  A section or pattern may also be written as an array of its fields in
their order.  Of several mistakes the first one in the document is reported.
-/
import LintFindings.Config
import LintFindings.Toml.Reader
import LintFindings.Text.Quoted

namespace LintFindings

/-- Why a TOML document is no configuration. -/
inductive SchemaError where
  | invalidType (found expected : Text)
  | unknownField (name : Text) (expected : List Text)
  | unknownVariant (name : Text) (expected : List Text)
  | missingField (name : Text)
  | invalidLength (length : Nat) (expected : Text)
  /-- A severity that is neither a string nor a table with a single entry. -/
  | noSeverity
  /-- A severity that is the key of something that is not empty. -/
  | notEmpty
  deriving DecidableEq, Repr

namespace SchemaError

/-- A name between grave accents. -/
def marked (name : Text) : Text := '\x60' :: name ++ ['\x60']

/-- What is expected, as a choice of names. -/
def choice : List Text → Text
  | [] => "there are no fields".toList
  | [a] => "expected ".toList ++ marked a
  | [a, b] => "expected ".toList ++ marked a ++ " or ".toList ++ marked b
  | names => "expected one of ".toList ++ ", ".toList.intercalate (names.map marked)

/-- The text of an error. -/
def message : SchemaError → Text
  | invalidType found expected =>
    "invalid type: ".toList ++ found ++ ", expected ".toList ++ expected
  | unknownField name expected =>
    "unknown field ".toList ++ marked name ++ ", ".toList ++ choice expected
  | unknownVariant name expected =>
    "unknown variant ".toList ++ marked name ++ ", ".toList ++ choice expected
  | missingField name => "missing field ".toList ++ marked name
  | invalidLength length expected =>
    "invalid length ".toList ++ Text.decimal length ++ ", expected ".toList ++ expected
  | noSeverity => "wanted string or table".toList
  | notEmpty => "expected empty table".toList

end SchemaError

namespace Toml

/-- What a value is found to be. -/
def kind : Toml → Text
  | .string t => "string ".toList ++ Text.quoted t
  | .integer n =>
    "integer ".toList ++
      SchemaError.marked ((if n < 0 then ['-'] else []) ++ Text.decimal n.natAbs)
  | .float shown => "floating point ".toList ++ SchemaError.marked shown
  | .boolean b => "boolean ".toList ++ SchemaError.marked (if b then "true" else "false").toList
  | .datetime _ => "map".toList
  | .array _ => "sequence".toList
  | .table _ => "map".toList

/-- The error for a value of another kind. -/
def mismatch {α : Type} (v : Toml) (expected : String) : Except SchemaError α :=
  .error (.invalidType v.kind expected.toList)

/-- A truth value. -/
def boolean? : Toml → Except SchemaError Bool
  | .boolean b => .ok b
  | v => v.mismatch "a boolean"

/-- A string. -/
def text? : Toml → Except SchemaError Text
  | .string t => .ok t
  | v => v.mismatch "a string"

/-- The items of an array, each read by `item?`. -/
def list? {α : Type} (item? : Toml → Except SchemaError α) : Toml → Except SchemaError (List α)
  | .array items => items.mapM item?
  | v => v.mismatch "a sequence"

/-- The entries of a table; a date is a table with an entry of its own. -/
def entries? : Toml → Option (List (Text × Toml))
  | .table entries => some entries
  | .datetime shown => some [("$__toml_private_datetime".toList, .string shown)]
  | _ => none

/-- The fields of a record: the entries of a table or, from an array, its items in the order of
the field names. -/
def fields? (record : String) (names : List Text) (v : Toml) :
    Except SchemaError (List (Text × Toml)) :=
  match v.entries?, v with
  | some entries, _ => .ok entries
  | none, .array items => .ok (names.zip items)
  | none, v => v.mismatch ("struct " ++ record)

/-- The names of the severities, in the order in which they are listed. -/
def severityNames : List Text := [Severity.error, .warning, .note, .none].map Severity.name

/-- The severity of a name. -/
def severityOfName? (t : Text) : Except SchemaError Severity :=
  match Severity.ofName? t with
  | some s => .ok s
  | none => .error (.unknownVariant t severityNames)

/-- A severity: its name, or a table whose only key is the name and holds nothing. -/
def severity? : Toml → Except SchemaError Severity
  | .string t => severityOfName? t
  | .table [(t, v)] => do
    let s ← severityOfName? t
    match v with
    | .table [] | .array [] => .ok s
    | _ => .error .notEmpty
  | _ => .error .noSeverity

end Toml

namespace Config

/-- The names of the fields of a pattern. -/
def patternFields : List Text := ["name", "regex"].map String.toList

/-- The names of the fields of the section on reading. -/
def parserFields : List Text := ["formats", "fallback", "patterns"].map String.toList

/-- The names of the fields of the section on severities. -/
def severityFields : List Text := ["aliases".toList]

/-- The names of the fields of the section on writing. -/
def outputFields : List Text := ["pretty", "information_uri"].map String.toList

/-- The names of the sections. -/
def sections : List Text := ["parser", "severity", "output"].map String.toList

/-- Takes the entries of a record in their order into what `setField` builds. -/
def setAll {α : Type} (setField : α → Text → Toml → Except SchemaError α) (start : α)
    (entries : List (Text × Toml)) : Except SchemaError α :=
  entries.foldlM (fun a (name, v) => setField a name v) start

/-- A field of a pattern: its name and its expression, as far as they are known. -/
def setPatternField (p : Option Text × Option Text) (name : Text) (v : Toml) :
    Except SchemaError (Option Text × Option Text) :=
  if name = "name".toList then (v.text?).map fun t => (some t, p.2)
  else if name = "regex".toList then (v.text?).map fun t => (p.1, some t)
  else .error (.unknownField name patternFields)

/-- A pattern. -/
def pattern? (v : Toml) : Except SchemaError PatternSpec := do
  let entries ← v.fields? "PatternConfig" patternFields
  let p ← setAll setPatternField (none, none) entries
  let missing := fun (name : String) (position : Nat) =>
    match v with
    | .array _ =>
      SchemaError.invalidLength position "struct PatternConfig with 2 elements".toList
    | _ => .missingField name.toList
  match p with
  | (some name, some regex) => .ok { name, regex }
  | (none, _) => .error (missing "name" 0)
  | (some _, none) => .error (missing "regex" 1)

/-- A field of the section on reading. -/
def setParserField (c : Config) (name : Text) (v : Toml) : Except SchemaError Config :=
  if name = "formats".toList then (v.list? Toml.text?).map fun formats => { c with formats }
  else if name = "fallback".toList then (v.boolean?).map fun fallback => { c with fallback }
  else if name = "patterns".toList then (v.list? pattern?).map fun patterns => { c with patterns }
  else .error (.unknownField name parserFields)

/-- The words for severities. -/
def aliases? (v : Toml) : Except SchemaError (TextMap Severity) :=
  match v.entries? with
  | some entries => do
    let pairs ← entries.mapM fun (token, s) => (s.severity?).map (token, ·)
    .ok (TextMap.ofPairs pairs)
  | none => v.mismatch "a map"

/-- A field of the section on severities. -/
def setSeverityField (c : Config) (name : Text) (v : Toml) : Except SchemaError Config :=
  if name = "aliases".toList then (aliases? v).map fun aliases => { c with aliases }
  else .error (.unknownField name severityFields)

/-- A field of the section on writing. -/
def setOutputField (c : Config) (name : Text) (v : Toml) : Except SchemaError Config :=
  if name = "pretty".toList then (v.boolean?).map fun pretty => { c with pretty }
  else if name = "information_uri".toList then
    (v.text?).map fun uri => { c with informationUri := some uri }
  else .error (.unknownField name outputFields)

/-- A section. -/
def setSection (c : Config) (name : Text) (v : Toml) : Except SchemaError Config :=
  if name = "parser".toList then do
    setAll setParserField c (← v.fields? "ParserConfig" parserFields)
  else if name = "severity".toList then do
    setAll setSeverityField c (← v.fields? "SeverityConfig" severityFields)
  else if name = "output".toList then do
    setAll setOutputField c (← v.fields? "OutputConfig" outputFields)
  else .error (.unknownField name sections)

/-- The configuration of a document. -/
def ofEntries? (entries : List (Text × Toml)) : Except SchemaError Config :=
  setAll setSection standard entries

end Config

/-- Why a text is no configuration. -/
inductive ReadConfigError where
  /-- The text is no TOML. -/
  | malformed
  /-- The document does not fit. -/
  | schema (e : SchemaError)
  deriving DecidableEq, Repr

/-- The configuration that a text holds. -/
def Config.read? (t : Text) : Except ReadConfigError Config :=
  match Toml.read? t with
  | none => .error .malformed
  | some entries => (ofEntries? entries).mapError .schema

end LintFindings
