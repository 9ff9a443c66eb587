/-
A run is not lost as JSON.

A run is written as a record of records.  What a record has to have in order to show a finding or
a run is said by relations between its members and the data: no known member stands twice, what a
finding does not have is null or missing, and it is open where the members stand and what others
there are.  The written record shows its run (`Run.shows_toJson`), and so does every record that
varies from one that does in these ways (`Finding.Fields.vary`, `Run.Fields.vary`).

Every text of such a record reads back as the run (`Run.read_of_spelledBy`), so what becomes of the
run does not depend on whether it was stored in between.
-/
import LintFindings.Proofs.Converter
import LintFindings.Proofs.Format.Diagnostic
import LintFindings.RunRecord

namespace LintFindings

open Diagnostic (ShowsText ShowsPosition text?_of_shows uint32?_of_shows)
open Json (Has HasOptional Lacks Once ShowsList)

/-! ### Members that vary -/

namespace Json

variable {α : Type} {R : Json → α → Prop} {names : List String} {name : String} {v w : Json}
  {fields fields' : List (Text × Json)} {a : α} {o : Option α}

/-- Records with the same known members, save that nulls may be missing in either: their order does
not matter, and neither do other members. -/
structure Varies (names : List String) (fields fields' : List (Text × Json)) : Prop where
  once : Once names fields
  once' : Once names fields'
  mem_iff : ∀ name ∈ names, ∀ v, v ≠ .null →
    ((name.toList, v) ∈ fields' ↔ (name.toList, v) ∈ fields)

theorem Once.of_keys (hkeys : fields.map Prod.fst = names.map String.toList)
    (hnames : (names.map String.toList).Nodup) : Once names fields := by
  intro name _
  rw [hkeys]
  exact List.nodup_iff_count.mp hnames _

theorem Once.eq_of_mem (h : Once names fields) (hname : name ∈ names)
    (hv : (name.toList, v) ∈ fields) (hw : (name.toList, w) ∈ fields) : v = w := by
  have hfield := field?_known_of_mem (h name hname) hname hv
  rw [field?_known_of_mem (h name hname) hname hw] at hfield
  exact (Option.some.inj hfield).symm

theorem Varies.has (h : Varies names fields fields') (hname : name ∈ names)
    (hnull : ¬ R .null a) (ha : Has R fields name a) : Has R fields' name a := by
  obtain ⟨v, hv, hshows⟩ := ha
  have hne : v ≠ .null := by
    rintro rfl
    exact hnull hshows
  exact ⟨v, (h.mem_iff name hname v hne).mpr hv, hshows⟩

theorem Varies.hasOptional (h : Varies names fields fields') (hname : name ∈ names)
    (hnull : ∀ a, ¬ R .null a) (ho : HasOptional R fields name o) :
    HasOptional R fields' name o := by
  cases o with
  | some a => exact h.has hname (hnull a) ho
  | none =>
      by_cases hlacks : Lacks fields' name
      · exact .inl hlacks
      obtain ⟨⟨_, v⟩, hv, rfl⟩ := List.mem_map.mp (not_not.mp hlacks)
      by_cases hne : v = .null
      · rw [hne] at hv
        exact .inr hv
      -- a member that is no null would stand in the other record too
      have hmem := (h.mem_iff name hname v hne).mp hv
      obtain hnone | hmissing := ho
      · exact absurd (List.mem_map.mpr ⟨_, hmem, rfl⟩) hnone
      · exact absurd (h.once.eq_of_mem hname hmem hmissing) hne

theorem hasOptional_orNull {toJson : α → Json} (hshows : ∀ a, R (toJson a) a)
    (hmem : (name.toList, orNull toJson o) ∈ fields) : HasOptional R fields name o := by
  cases o with
  | some a => exact ⟨_, hmem, hshows a⟩
  | none => exact .inr hmem

theorem spellable_orNull {toJson : α → Json} (h : ∀ a, Spellable (toJson a)) (o : Option α) :
    Spellable (orNull toJson o) := by
  cases o with
  | some a => exact h a
  | none => trivial

end Json

/-! ### Severities -/

/-- A string shows the severity of its name. -/
def Severity.ShownBy (v : Json) (s : Severity) : Prop := v = .text s.name

theorem Severity.ofJson?_of_shown {v : Json} {s : Severity} (h : ShownBy v s) :
    ofJson? v = some s := by
  rw [h]
  cases s <;> rfl

/-! ### Findings -/

namespace Finding

variable {f : Finding} {v : Json} {fields fields' : List (Text × Json)}

/-- The names of the members of a finding. -/
def members : List String :=
  ["file_path", "line", "column", "end_line", "end_column", "rule_id", "help_uri", "severity",
    "message"]

/-- The members of a finding. -/
structure Fields (fields : List (Text × Json)) (f : Finding) : Prop where
  once : Once members fields
  filePath : Has ShowsText fields "file_path" f.filePath
  line : HasOptional ShowsPosition fields "line" f.line
  column : HasOptional ShowsPosition fields "column" f.column
  endLine : HasOptional ShowsPosition fields "end_line" f.endLine
  endColumn : HasOptional ShowsPosition fields "end_column" f.endColumn
  ruleId : HasOptional ShowsText fields "rule_id" f.ruleId
  helpUri : HasOptional ShowsText fields "help_uri" f.helpUri
  severity : Has Severity.ShownBy fields "severity" f.severity
  message : Has ShowsText fields "message" f.message

/-- An object shows a finding. -/
def Shows (v : Json) (f : Finding) : Prop := ∃ fields, v = .record fields ∧ Fields fields f

theorem Fields.vary (hvary : Json.Varies members fields fields') (h : Fields fields f) :
    Fields fields' f where
  once := hvary.once'
  filePath := hvary.has (by decide) nofun h.filePath
  line := hvary.hasOptional (by decide) nofun h.line
  column := hvary.hasOptional (by decide) nofun h.column
  endLine := hvary.hasOptional (by decide) nofun h.endLine
  endColumn := hvary.hasOptional (by decide) nofun h.endColumn
  ruleId := hvary.hasOptional (by decide) nofun h.ruleId
  helpUri := hvary.hasOptional (by decide) nofun h.helpUri
  severity := hvary.has (by decide) nofun h.severity
  message := hvary.has (by decide) nofun h.message

theorem shows_toJson (f : Finding) : Shows f.toJson f :=
  have htext (t : Text) : ShowsText (.text t) t := rfl
  have hposition (n : UInt32) : ShowsPosition (Sarif.positionJson n) n := rfl
  ⟨_, rfl,
    { once := .of_keys rfl (by decide)
      filePath := ⟨_, by simp, htext _⟩
      line := Json.hasOptional_orNull hposition (by simp)
      column := Json.hasOptional_orNull hposition (by simp)
      endLine := Json.hasOptional_orNull hposition (by simp)
      endColumn := Json.hasOptional_orNull hposition (by simp)
      ruleId := Json.hasOptional_orNull htext (by simp)
      helpUri := Json.hasOptional_orNull htext (by simp)
      severity := ⟨f.severity.toJson, by simp, rfl⟩
      message := ⟨_, by simp, htext _⟩ }⟩

theorem ofJson?_of_shows (h : Shows v f) : ofJson? v = some f := by
  obtain ⟨fields, rfl, h⟩ := h
  have hposition (name : String) (hname : name ∈ members) {o : Option UInt32}
      (ho : HasOptional ShowsPosition fields name o) :
      Json.optional? (Json.known members fields) name Json.uint32? = some o := by
    refine Json.optional?_of_has h.once hname ?_ rfl ho
    exact fun _ _ => uint32?_of_shows
  have htext (name : String) (hname : name ∈ members) {o : Option Text}
      (ho : HasOptional ShowsText fields name o) :
      Json.optional? (Json.known members fields) name Json.text? = some o := by
    refine Json.optional?_of_has h.once hname ?_ rfl ho
    exact fun _ _ => text?_of_shows
  have hrecord := Json.record?_of_once h.once 9
  have hpath := Json.required?_of_has h.once (by decide) (fun _ => text?_of_shows) h.filePath
  have hline := hposition _ (by decide) h.line
  have hcolumn := hposition _ (by decide) h.column
  have hendLine := hposition _ (by decide) h.endLine
  have hendColumn := hposition _ (by decide) h.endColumn
  have hrule := htext _ (by decide) h.ruleId
  have huri := htext _ (by decide) h.helpUri
  have hseverity := Json.required?_of_has h.once (by decide)
    (fun _ => Severity.ofJson?_of_shown) h.severity
  have hmessage := Json.required?_of_has h.once (by decide) (fun _ => text?_of_shows) h.message
  rw [members] at *
  simp only [ofJson?, hrecord, Option.bind_eq_bind, Option.bind_some, hpath, hline, hcolumn,
    hendLine, hendColumn, hrule, huri, hseverity, hmessage]

theorem spellable_toJson (f : Finding) : Json.Spellable f.toJson := by
  refine Json.spellable_record ?_
  have hposition := Json.spellable_orNull Sarif.spellable_positionJson
  have htext := Json.spellable_orNull Json.spellable_text
  simp [Json.SpellableFields, hposition, htext, Severity.toJson]

end Finding

/-! ### Runs -/

namespace Run

variable {run : Run} {v : Json} {t : Text} {fields fields' : List (Text × Json)}

/-- The names of the members of a run. -/
def members : List String := ["tool_name", "target_label", "findings"]

/-- The members of a run. -/
structure Fields (fields : List (Text × Json)) (run : Run) : Prop where
  once : Once members fields
  toolName : Has ShowsText fields "tool_name" run.toolName
  targetLabel : Has ShowsText fields "target_label" run.targetLabel
  findings : Has (ShowsList Finding.Shows) fields "findings" run.findings

/-- An object shows a run. -/
def Shows (v : Json) (run : Run) : Prop := ∃ fields, v = .record fields ∧ Fields fields run

/-- A text of an object that shows the run. -/
def SpelledBy (run : Run) (t : Text) : Prop := ∃ v, Json.Spells t v ∧ Shows v run

theorem Fields.vary (hvary : Json.Varies members fields fields') (h : Fields fields run) :
    Fields fields' run where
  once := hvary.once'
  toolName := hvary.has (by decide) nofun h.toolName
  targetLabel := hvary.has (by decide) nofun h.targetLabel
  findings := hvary.has (by decide) (fun ⟨_, hvs, _⟩ => nomatch hvs) h.findings

theorem shows_toJson (run : Run) : Shows run.toJson run :=
  have hfindings : ShowsList Finding.Shows (.array (run.findings.map Finding.toJson))
      run.findings := by
    refine ⟨_, rfl, ?_⟩
    rw [List.forall₂_map_left_iff, List.forall₂_same]
    exact fun f _ => f.shows_toJson
  ⟨_, rfl,
    { once := .of_keys rfl (by decide)
      toolName := ⟨.text run.toolName, by simp, rfl⟩
      targetLabel := ⟨.text run.targetLabel, by simp, rfl⟩
      findings := ⟨_, by simp, hfindings⟩ }⟩

theorem ofJson?_of_shows (h : Shows v run) : ofJson? v = some run := by
  obtain ⟨fields, rfl, h⟩ := h
  have htool := Json.required?_of_has h.once (by decide) (fun _ => text?_of_shows) h.toolName
  have hlabel := Json.required?_of_has h.once (by decide) (fun _ => text?_of_shows) h.targetLabel
  have hfindings := Json.required?_of_has (R := ShowsList Finding.Shows) h.once (by decide)
    (fun _ => Json.list?_of_shows fun _ _ => Finding.ofJson?_of_shows) h.findings
  have hrecord := Json.record?_of_once h.once 3
  rw [members] at *
  rw [ofJson?, hrecord]
  simp [htool, hlabel, hfindings]

theorem spellable_toJson (run : Run) : Json.Spellable run.toJson := by
  refine Json.spellable_record ?_
  have hfindings := Json.spellable_array Finding.spellable_toJson run.findings
  simp [Json.SpellableFields, hfindings]

/-- A run is spelled by the text that it is written as. -/
theorem spelledBy_write (run : Run) (pretty : Bool) :
    run.SpelledBy (Json.write (.ofPretty pretty) run.toJson) :=
  ⟨_, Json.spells_write (Json.Layout.addsBlanks_ofPretty pretty) run.spellable_toJson,
    run.shows_toJson⟩

theorem read_of_spelledBy (h : run.SpelledBy t) : Json.read? t >>= ofJson? = some run := by
  obtain ⟨v, hspells, hshows⟩ := h
  have hread := Json.read?_spells hspells Json.gap_nil
  rw [List.append_nil] at hread
  rw [hread]
  exact ofJson?_of_shows hshows

/-- **A run survives as JSON.**  It is read back from its written form, and from every other text
of an object that shows it: absent data may be null or missing, members may stand in any order and
beside others that are not known.  So its document is that of the report it was read from. -/
theorem survives_json (run : Run) :
    (∀ t, run.SpelledBy t → Json.read? t >>= ofJson? = some run) ∧
    (∀ pretty, run.SpelledBy (Json.write (.ofPretty pretty) run.toJson)) ∧
    (∀ fields fields', Json.Varies members fields fields' → Fields fields run →
      Fields fields' run) ∧
    (∀ f fields fields', Json.Varies Finding.members fields fields' → Finding.Fields fields f →
      Finding.Fields fields' f) ∧
    (∀ (c : Converter) label mnemonic report t,
      c.readRun label mnemonic report = .ok run → run.SpelledBy t →
        ∃ reloaded, Json.read? t >>= ofJson? = some reloaded ∧
          c.convert label mnemonic report = .ok (c.encode reloaded)) := by
  refine ⟨fun t => read_of_spelledBy, spelledBy_write run, fun _ _ => Fields.vary,
    fun _ _ _ => Finding.Fields.vary, ?_⟩
  intro c label mnemonic report t hrun hspelled
  exact ⟨run, read_of_spelledBy hspelled, Converter.convert_of_readRun hrun⟩

/-- A run with one finding. -/
def sample : Run :=
  { toolName := "lint".toList, targetLabel := "//a:b".toList
    findings :=
      [{ filePath := "a.c".toList, line := some 3, column := none, endLine := none
         endColumn := none, ruleId := none, helpUri := none, severity := .warning
         message := "bad".toList }] }

/-- The members of its finding, in another order, beside one that is not known, and of what is
absent only the rule as a null. -/
def sampleFinding : List (Text × Json) :=
  [("message".toList, .text "bad".toList), ("rule_id".toList, .null),
   ("severity".toList, .text "warning".toList), ("url".toList, .array [.null]),
   ("line".toList, .nat 3), ("file_path".toList, .text "a.c".toList)]

/-- Its members, in another order and beside one that is not known. -/
def sampleMembers : List (Text × Json) :=
  [("findings".toList, .array [.record sampleFinding]), ("version".toList, .nat 1),
   ("target_label".toList, .text "//a:b".toList), ("tool_name".toList, .text "lint".toList)]

theorem survives_json_reordered :
    Converter.standard.readRun "//a:b".toList "lint".toList "a.c:3: bad".toList = .ok sample ∧
    sample.SpelledBy (Json.write .compact (.record sampleMembers)) ∧
    ∃ reloaded, Json.read? (Json.write .compact (.record sampleMembers)) >>= ofJson? =
        some reloaded ∧
      Converter.standard.convert "//a:b".toList "lint".toList "a.c:3: bad".toList =
        .ok (Converter.standard.encode reloaded) := by
  have hrun : Converter.standard.readRun "//a:b".toList "lint".toList "a.c:3: bad".toList =
      .ok sample := by rfl
  have hspellable : Json.Spellable (.record sampleMembers) := by
    simp [Json.record, Json.Spellable, Json.SpellableMembers, Json.SpellableItems, sampleMembers,
      sampleFinding]
  have hfinding : ∀ f ∈ sample.findings, Finding.Shows (.record sampleFinding) f := by
    intro f hf
    obtain rfl := List.mem_singleton.mp hf
    refine ⟨_, rfl, by decide, ⟨_, ?path, rfl⟩, ⟨_, ?line, rfl⟩, .inl (by decide), .inl (by decide),
      .inl (by decide), .inr ?rule, .inl (by decide), ⟨_, ?severity, rfl⟩, ⟨_, ?message, rfl⟩⟩
    case message => exact List.mem_of_getElem? (i := 0) rfl
    case rule => exact List.mem_of_getElem? (i := 1) rfl
    case severity => exact List.mem_of_getElem? (i := 2) rfl
    case line => exact List.mem_of_getElem? (i := 4) rfl
    case path => exact List.mem_of_getElem? (i := 5) rfl
  have hshows : Shows (.record sampleMembers) sample := by
    refine ⟨_, rfl, by decide, ⟨_, ?tool, rfl⟩, ⟨_, ?label, rfl⟩,
      ⟨_, ?findings, _, rfl, .cons (hfinding _ List.mem_cons_self) .nil⟩⟩
    case findings => exact List.mem_of_getElem? (i := 0) rfl
    case label => exact List.mem_of_getElem? (i := 2) rfl
    case tool => exact List.mem_of_getElem? (i := 3) rfl
  have hspelled : sample.SpelledBy (Json.write .compact (.record sampleMembers)) :=
    ⟨_, Json.spells_write (Json.Layout.addsBlanks_ofPretty false) hspellable, hshows⟩
  exact ⟨hrun, hspelled, (survives_json sample).2.2.2.2 _ _ _ _ _ hrun hspelled⟩

end Run

end LintFindings
