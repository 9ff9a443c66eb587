/-
From a report to a text, and back to what the report says.

A conversion fails for its arguments only: `readRun_eq` says for which, and what the
run is otherwise.  What follows cannot fail and loses nothing: each finding of the
run has its result, in the order of the findings (`shows_ofRun`), and the text of the
document reads back as the document.
-/
import LintFindings.Converter
import LintFindings.Proofs.Sarif.RoundTrip
import LintFindings.Proofs.Text
import Mathlib.Data.List.Forall2

namespace LintFindings

/-! ### The results of a run -/

namespace Sarif

/-- A region holds the positions of a finding as they are. -/
structure Region.Shows (f : Finding) (r : Region) : Prop where
  startLine : f.line = some r.startLine
  startColumn : r.startColumn = f.column
  endLine : r.endLine = f.endLine
  endColumn : r.endColumn = f.endColumn

/-- A location names the file of a finding, and has a region if the finding has a line. -/
structure Location.Shows (f : Finding) (l : Location) : Prop where
  uri : l.uri = f.filePath
  region : l.region.isSome = f.line.isSome
  positions : ∀ r ∈ l.region, r.Shows f

/-- A result says of a finding all there is to say. -/
structure Result.Shows (toolName : Text) (f : Finding) (r : Result) : Prop where
  ruleId : r.ruleId = f.ruleId.getD toolName
  level : r.level.name = f.severity.name
  message : r.message = f.message
  location : ∃ l, r.locations = [l] ∧ l.Shows f

theorem shows_regionOf (f : Finding) : ∀ r ∈ regionOf f, r.Shows f := by
  intro r hr
  obtain ⟨line, hline, rfl⟩ := Option.map_eq_some_iff.mp hr
  exact ⟨hline, rfl, rfl, rfl⟩

theorem shows_resultOf (toolName : Text) (places : TextMap Nat) (f : Finding) :
    (resultOf toolName places f).Shows toolName f := by
  refine ⟨rfl, ?_, rfl, _, rfl, rfl, Option.isSome_map, shows_regionOf f⟩
  rw [resultOf]
  cases f.severity <;> rfl

/-- **One result for each finding, in their order.** -/
theorem shows_ofRun (run : Run) (informationUri : Option Text) :
    ∃ r, (Document.ofRun run informationUri).runs = [r] ∧ r.driver.name = run.toolName ∧
      r.automationId = run.targetLabel ∧
      List.Forall₂ (Result.Shows run.toolName) run.findings r.results := by
  refine ⟨_, rfl, rfl, rfl, ?_⟩
  rw [List.forall₂_map_right_iff, List.forall₂_same]
  intro f _
  exact shows_resultOf _ _ f

end Sarif

/-! ### Conversions -/

namespace Converter

theorem required_eq (a : Argument) (value : Text) :
    required a value =
      if Text.trim value = [] then .error (.blankArgument a) else .ok (Text.trim value) := by
  unfold required
  cases htrim : Text.trimmed? value with
  | none => rw [if_pos (Text.trimmed?_eq_none_iff.mp htrim)]
  | some t =>
      obtain ⟨rfl, hne⟩ := Text.trimmed?_eq_some_iff.mp htrim
      rw [if_neg hne]

/-- **What becomes of a report**: the label is looked at first, and then the mnemonic. -/
theorem readRun_eq (c : Converter) (label mnemonic report : Text) :
    c.readRun label mnemonic report =
      if Text.trim label = [] then .error (.blankArgument .label)
      else if Text.trim mnemonic = [] then .error (.blankArgument .mnemonic)
      else .ok
        { toolName := Text.trim mnemonic
          targetLabel := Text.trim label
          findings := c.reader.read report (Label.reference (Text.trim label)) } := by
  rw [readRun, required_eq, required_eq]
  split
  · rfl
  · split <;> rfl

/-- A run that was read knows its arguments without their margins, and has the findings of the
report. -/
theorem eq_of_readRun {c : Converter} {label mnemonic report : Text} {run : Run}
    (h : c.readRun label mnemonic report = .ok run) :
    run =
      { toolName := Text.trim mnemonic
        targetLabel := Text.trim label
        findings := c.reader.read report (Label.reference (Text.trim label)) } := by
  rw [readRun_eq] at h
  split at h
  · cases h
  · split at h
    · cases h
    · cases h
      rfl

/-- The one reason to fail. -/
theorem convert_eq_error_iff {c : Converter} {label mnemonic report : Text} {e : Error} :
    c.convert label mnemonic report = .error e ↔
      Text.trim label = [] ∧ e = .blankArgument .label ∨
      Text.trim label ≠ [] ∧ Text.trim mnemonic = [] ∧ e = .blankArgument .mnemonic := by
  rw [convert, readRun_eq]
  by_cases hlabel : Text.trim label = []
  · rw [if_pos hlabel]
    simp [hlabel, Except.map, eq_comm (a := e)]
  · rw [if_neg hlabel]
    by_cases hmnemonic : Text.trim mnemonic = []
    · rw [if_pos hmnemonic]
      simp [hlabel, hmnemonic, Except.map, eq_comm (a := e)]
    · rw [if_neg hmnemonic]
      simp [hlabel, hmnemonic, Except.map]

/-- A run that was read is converted to the text of its document. -/
theorem convert_of_readRun {c : Converter} {label mnemonic report : Text} {run : Run}
    (h : c.readRun label mnemonic report = .ok run) :
    c.convert label mnemonic report = .ok (c.encode run) := by
  rw [convert, h]
  rfl

/-- **A conversion fails for a blank argument only, and else nothing is lost.**  The text reads
back as a document of one run with a result for each finding. -/
theorem convert_faithful (c : Converter) (label mnemonic report : Text) :
    (∀ e, c.convert label mnemonic report = .error e ↔
      Text.trim label = [] ∧ e = .blankArgument .label ∨
      Text.trim label ≠ [] ∧ Text.trim mnemonic = [] ∧ e = .blankArgument .mnemonic) ∧
    ((∃ e, c.convert label mnemonic report = .error e) ∨
      ∃ text run doc r,
        c.convert label mnemonic report = .ok text ∧
        c.readRun label mnemonic report = .ok run ∧
        Sarif.Document.read? text = some doc ∧
        doc.version = "2.1.0".toList ∧ doc.runs = [r] ∧
        r.driver.name = Text.trim mnemonic ∧ r.automationId = Text.trim label ∧
        List.Forall₂ (Sarif.Result.Shows (Text.trim mnemonic)) run.findings r.results) := by
  refine ⟨fun e => convert_eq_error_iff, ?_⟩
  cases hrun : c.readRun label mnemonic report with
  | error e =>
      left
      exact ⟨e, by rw [convert, hrun]; rfl⟩
  | ok run =>
      right
      have hname : run.toolName = Text.trim mnemonic := by rw [eq_of_readRun hrun]
      have hid : run.targetLabel = Text.trim label := by rw [eq_of_readRun hrun]
      obtain ⟨r, hruns, hdriver, hautomation, hresults⟩ := Sarif.shows_ofRun run c.informationUri
      rw [hname] at hdriver hresults
      rw [hid] at hautomation
      exact ⟨c.encode run, run, _, r, convert_of_readRun hrun, rfl,
        Sarif.Document.read?_write _ _, rfl, hruns, hdriver, hautomation, hresults⟩

end Converter

end LintFindings
