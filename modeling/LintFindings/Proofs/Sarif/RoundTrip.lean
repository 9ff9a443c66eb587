/-
Documents read back from their texts.

`Document.read?_write` says that a document is exactly what its text holds, in
either layout.  A text is made in two steps, so the proof has two halves.  From
JSON to text and back is `Proofs/Json/RoundTrip.lean`; it asks that the JSON of a
document can be spelled out, which it can because it holds nothing but texts,
natural numbers, arrays and records.  From a document to JSON and back is one lemma
for each kind of record, from the rule and the region up to the document, each
using those before it: the names of the fields that are written are known to the
reader and in its order, and a field that was left out reads as what it was left
out for.
-/
import LintFindings.Sarif.Encoding
import LintFindings.Proofs.Json.Records

namespace LintFindings

open Json

namespace Sarif

/-! ### The fields of a record -/

section

variable {α : Type}

@[simp] theorem field?_field (k name : String) (v : Json) :
    field? (field name v) k = if k = name then some v else none := by
  by_cases h : k = name
  · simp [field?, field, h]
  · have hne : k.toList ≠ name.toList := fun hc => h (String.toList_inj.mp hc)
    simp [field?, field, List.lookup_cons, beq_false_of_ne hne, h]

@[simp] theorem field?_fieldIf (k name : String) (toJson : α → Json) (o : Option α) :
    field? (fieldIf name toJson o) k = if k = name then o.map toJson else none := by
  cases o with
  | none => simp [field?, fieldIf]
  | some a => exact field?_field k name (toJson a)

/-- Fields with names from a list, in its order. -/
def Named (fields : List (Text × Json)) (ns : List String) : Prop :=
  (fields.map Prod.fst).Sublist (names ns)

theorem named_field (name : String) (v : Json) : Named (field name v) [name] := .refl _

theorem named_fieldIf (name : String) (toJson : α → Json) (o : Option α) :
    Named (fieldIf name toJson o) [name] := by
  cases o <;> simp [Named, fieldIf, names]

theorem Named.append {fields more : List (Text × Json)} {ns ms : List String}
    (h : Named fields ns) (h' : Named more ms) : Named (fields ++ more) (ns ++ ms) := by
  simpa [Named, names] using List.Sublist.append h h'

theorem record?_named {fields : List (Text × Json)} {ns : List String} {least : Nat}
    (h : Named fields ns) (hns : (names ns).Nodup) :
    record? (names ns) least (.record fields) = some fields := record?_record hns h

@[simp] theorem wrapped?_record {name : String} {v : Json} {value? : Json → Option α} :
    wrapped? name value? (.record (field name v)) = value? v := by
  rw [wrapped?, record?_named]
  · simp [required?]
  · exact named_field name v
  · simp [names]

@[simp] theorem spellableFields_field {name : String} {v : Json} :
    SpellableFields (field name v) ↔ Spellable v := by
  simp [SpellableFields, field]

theorem spellableFields_fieldIf {toJson : α → Json} (h : ∀ a, Spellable (toJson a))
    (name : String) (o : Option α) : SpellableFields (fieldIf name toJson o) := by
  cases o <;> simp [SpellableFields, fieldIf, h]

end

/-! ### From a document to JSON and back -/

theorem positionJson_ne_null (n : UInt32) : positionJson n ≠ .null := by
  simp [positionJson, Json.nat]

theorem Level.ofJson?_toJson (l : Level) : Level.ofJson? l.toJson = some l := by
  cases l <;> rfl

theorem Rule.ofJson?_toJson (r : Rule) : Rule.ofJson? r.toJson = some r := by
  rw [ofJson?, toJson, record?_named]
  · generalize hF : field "id" _ ++ fieldIf "helpUri" _ _ = fields
    have hid : field? fields "id" = some (.text r.id) := by simp [← hF]
    have huri : field? fields "helpUri" = r.helpUri.map .text := by simp [← hF]
    simp [required?, hid, optional?_of_field? huri text_ne_null text?_text]
  · exact (named_field ..).append (named_fieldIf ..)
  · decide

theorem Region.ofJson?_toJson (r : Region) : Region.ofJson? r.toJson = some r := by
  rw [ofJson?, toJson, record?_named]
  · generalize hF : field "startLine" _ ++ _ ++ _ ++ _ = fields
    have hread {name : String} {o : Option UInt32}
        (h : field? fields name = o.map positionJson) : optional? fields name uint32? = some o :=
      optional?_of_field? h positionJson_ne_null uint32?_nat
    have hline : field? fields "startLine" = some (positionJson r.startLine) := by simp [← hF]
    have hcolumn : field? fields "startColumn" = r.startColumn.map positionJson := by simp [← hF]
    have hendLine : field? fields "endLine" = r.endLine.map positionJson := by simp [← hF]
    have hendColumn : field? fields "endColumn" = r.endColumn.map positionJson := by simp [← hF]
    simp [required?, hline, positionJson, uint32?_nat, hread hcolumn, hread hendLine,
      hread hendColumn]
  · exact (((named_field ..).append (named_fieldIf ..)).append (named_fieldIf ..)).append
      (named_fieldIf ..)
  · decide

theorem Location.ofJson?_toJson (l : Location) : Location.ofJson? l.toJson = some l := by
  rw [ofJson?, toJson, wrapped?_record, ofPhysical?, record?_named]
  · generalize hF : field "artifactLocation" _ ++ _ = fields
    have huri : field? fields "artifactLocation" = some (.record (field "uri" (.text l.uri))) := by
      simp [← hF]
    have hregion : field? fields "region" = l.region.map Region.toJson := by simp [← hF]
    have hread := optional?_of_field? hregion (by simp [Region.toJson, Json.record])
      Region.ofJson?_toJson
    simp [required?, huri, hread]
  · exact (named_field ..).append (named_fieldIf ..)
  · decide

theorem Result.ofJson?_toJson (r : Result) : Result.ofJson? r.toJson = some r := by
  rw [ofJson?, toJson, record?_named]
  · simp [required?, uint64?_nat, Level.ofJson?_toJson, list?_map Location.ofJson?_toJson]
  · exact ((((named_field ..).append (named_field ..)).append (named_field ..)).append
      (named_field ..)).append (named_field ..)
  · decide

theorem Driver.ofJson?_toJson (d : Driver) : Driver.ofJson? d.toJson = some d := by
  rw [ofJson?, toJson, record?_named]
  · generalize hF : field "name" _ ++ _ ++ _ = fields
    have hname : field? fields "name" = some (.text d.name) := by simp [← hF]
    have huri : field? fields "informationUri" = d.informationUri.map .text := by simp [← hF]
    -- a tool without rules has no field for them, which reads as none
    have hrules : defaulted? fields "rules" [] (list? Rule.ofJson?) = some d.rules := by
      by_cases h : d.rules = []
      · simp [defaulted?, ← hF, h]
      · simp [defaulted?, ← hF, h, list?_map Rule.ofJson?_toJson]
    simp [required?, hname, optional?_of_field? huri text_ne_null text?_text, hrules]
  · exact ((named_field ..).append (named_fieldIf ..)).append (named_fieldIf ..)
  · decide

theorem DocumentRun.ofJson?_toJson (r : DocumentRun) : DocumentRun.ofJson? r.toJson = some r := by
  rw [ofJson?, toJson, record?_named]
  · simp [required?, Driver.ofJson?_toJson, list?_map Result.ofJson?_toJson]
  · exact ((named_field ..).append (named_field ..)).append (named_field ..)
  · decide

/-- **The fields of a document say all of it.** -/
theorem Document.ofJson?_toJson (d : Document) : Document.ofJson? d.toJson = some d := by
  rw [ofJson?, toJson, record?_named]
  · simp [required?, list?_map DocumentRun.ofJson?_toJson]
  · exact ((named_field ..).append (named_field ..)).append (named_field ..)
  · decide

/-! ### The JSON of a document can be spelled out -/

theorem spellable_positionJson (n : UInt32) : Spellable (positionJson n) := spellable_nat _

theorem Rule.spellable_toJson (r : Rule) : Spellable r.toJson :=
  spellable_record (by simp [spellableFields_fieldIf spellable_text])

theorem Region.spellable_toJson (r : Region) : Spellable r.toJson :=
  spellable_record (by
    simp [spellable_positionJson, spellableFields_fieldIf spellable_positionJson])

theorem Location.spellable_toJson (l : Location) : Spellable l.toJson := by
  have huri : Spellable (.record (field "uri" (.text l.uri))) := spellable_record (by simp)
  have hphysical :
      SpellableFields (field "artifactLocation" (.record (field "uri" (.text l.uri))) ++
        fieldIf "region" Region.toJson l.region) := by
    simp [huri, spellableFields_fieldIf Region.spellable_toJson]
  exact spellable_record (by simp [spellable_record hphysical])

theorem Result.spellable_toJson (r : Result) : Spellable r.toJson := by
  have hlevel : Spellable r.level.toJson := spellable_text _
  have hmessage : Spellable (.record (field "text" (.text r.message))) := spellable_record (by simp)
  exact spellable_record (by
    simp [hlevel, hmessage, spellable_array Location.spellable_toJson])

theorem Driver.spellable_toJson (d : Driver) : Spellable d.toJson :=
  spellable_record (by
    simp [spellableFields_fieldIf spellable_text,
      spellableFields_fieldIf (spellable_array Rule.spellable_toJson)])

theorem DocumentRun.spellable_toJson (r : DocumentRun) : Spellable r.toJson := by
  have htool : Spellable (.record (field "driver" r.driver.toJson)) :=
    spellable_record (by simp [Driver.spellable_toJson])
  have hdetails : Spellable (.record (field "id" (.text r.automationId))) :=
    spellable_record (by simp)
  exact spellable_record (by simp [htool, hdetails, spellable_array Result.spellable_toJson])

theorem Document.spellable_toJson (d : Document) : Spellable d.toJson :=
  spellable_record (by simp [spellable_array DocumentRun.spellable_toJson])

/-! ### Texts -/

/-- **A document is what its text holds.** -/
theorem Document.read?_write (d : Document) (pretty : Bool) :
    Document.read? (d.write pretty) = some d := by
  rw [Document.read?, Document.write,
    Json.read?_write (Layout.addsBlanks_ofPretty pretty) d.spellable_toJson]
  exact d.ofJson?_toJson

/-- **Nothing of a document is lost in its text, and its text says nothing else.**  Either layout
reads back as the document, so the two agree, and what was read is written as it stood; the text
on one line has one line. -/
theorem Document.write_faithful (d : Document) :
    (∀ pretty, Document.read? (d.write pretty) = some d) ∧
      Document.read? (d.write true) = Document.read? (d.write false) ∧
      (∀ pretty, (Document.read? (d.write pretty)).map (·.write pretty) =
        some (d.write pretty)) ∧
      '\n' ∉ d.write false := by
  refine ⟨d.read?_write, ?_, ?_, ?_⟩
  · rw [d.read?_write true, d.read?_write false]
  · intro pretty
    rw [d.read?_write pretty, Option.map_some]
  · exact newline_notMem_write d.spellable_toJson

end Sarif

end LintFindings
