/-
Every location of a document is valid.

A valid region counts from one and does not end before it begins; a valid result has
one location, whose address is not blank, and a rule that is not blank.  The results
of sound findings are valid if the tool has a name (`valid_resultOf`).  The findings
of a report are sound and its tool has a name, or else there is no run, so the
document of a report has valid results only (`locations_valid`).
-/
import LintFindings.Proofs.Converter
import LintFindings.Proofs.Report

namespace LintFindings

namespace Sarif

/-! ### Valid results -/

/-- Positions count from one, and the end is not before the start. -/
structure Region.Valid (r : Region) : Prop where
  startLine : 1 ≤ r.startLine
  startColumn : ∀ c ∈ r.startColumn, 1 ≤ c
  endLine : ∀ l ∈ r.endLine, r.startLine ≤ l
  endColumn : ∀ c ∈ r.endColumn, 1 ≤ c ∧ r.endLine.isSome
  oneLine : r.endLine = some r.startLine →
    ∀ first ∈ r.startColumn, ∀ last ∈ r.endColumn, first ≤ last

/-- A result is about one file, whose address is not blank, and is attributed to a rule. -/
structure Result.Valid (r : Result) : Prop where
  ruleId : Text.trim r.ruleId ≠ []
  location : ∃ l, r.locations = [l] ∧ Text.trim l.uri ≠ [] ∧ ∀ region ∈ l.region, region.Valid

theorem valid_regionOf {f : Finding} (h : f.Placed) : ∀ r ∈ regionOf f, r.Valid := by
  intro r hr
  obtain ⟨line, hline, rfl⟩ := Option.map_eq_some_iff.mp hr
  refine ⟨h.line line hline, ?_, ?_, h.endColumn, ?_⟩
  · intro c hc
    exact (h.column c hc).1
  · intro l hl
    obtain ⟨line', hline', hle⟩ := h.endLine l hl
    cases hline.symm.trans hline'
    exact hle
  · intro hsame
    exact h.oneLine (hsame.trans hline.symm)

theorem trim_effectiveRule_ne_nil {f : Finding} {toolName : Text} (h : Finding.Named f.ruleId)
    (htool : Text.trim toolName ≠ []) : Text.trim (effectiveRule toolName f) ≠ [] := by
  unfold effectiveRule
  cases hrule : f.ruleId with
  | none => exact htool
  | some rule =>
      obtain ⟨hne, hbare⟩ := h rule hrule
      rw [Option.getD_some, Text.trim_of_bare hbare]
      exact hne

/-- The result of a sound finding is valid. -/
theorem valid_resultOf {f : Finding} {toolName : Text} (h : f.Sound)
    (htool : Text.trim toolName ≠ []) (places : TextMap Nat) :
    (resultOf toolName places f).Valid :=
  ⟨trim_effectiveRule_ne_nil h.rule htool, _, rfl, h.file, valid_regionOf h.toPlaced⟩

end Sarif

namespace Converter

/-! ### Reports -/

/-- **Whatever a report says, and whatever it is read with, its document points at valid
places.** -/
theorem locations_valid {engine : RegexEngine} {config : Config} (c : Converter)
    (hreader : config.reader? engine = .ok c.reader)
    {label mnemonic : Text} (hlabel : Text.trim label ≠ []) (hmnemonic : Text.trim mnemonic ≠ [])
    (report : Text) (informationUri : Option Text) :
    ∃ run r, c.readRun label mnemonic report = .ok run ∧
      (Sarif.Document.ofRun run informationUri).runs = [r] ∧
      (∀ result ∈ r.results, result.Valid) ∧ ∀ f ∈ run.findings, f.Sound := by
  have hsound : ∀ f ∈ c.reader.read report (Label.reference (Text.trim label)), f.Sound := by
    intro f hf
    exact ReportReader.sound_of_mem_read (Config.namesFiles_reader? hreader)
      (Label.trim_reference_ne_nil _) hf
  rw [readRun_eq, if_neg hlabel, if_neg hmnemonic]
  refine ⟨_, _, rfl, rfl, ?_, hsound⟩
  intro result hresult
  obtain ⟨f, hf, rfl⟩ := List.mem_map.mp hresult
  exact Sarif.valid_resultOf (hsound f hf) (by rwa [Text.trim_trim]) _

/-- The finding of a report of one line, and the place that its document points at. -/
theorem locations_valid_standard :
    let found : Finding :=
      { Finding.about "a.c".toList .warning "bad".toList with
          line := some 3, column := some 7, ruleId := some "x".toList }
    ∃ run r, Converter.standard.readRun "//a:b".toList "lint".toList "a.c:3:7: bad (x)".toList =
        .ok run ∧ run.findings = [found] ∧
      (Sarif.Document.ofRun run none).runs = [r] ∧
      r.results.flatMap Sarif.Result.locations = [⟨"a.c".toList, some ⟨3, some 7, none, none⟩⟩] ∧
      (∀ result ∈ r.results, result.Valid) ∧ ∀ f ∈ run.findings, f.Sound := by
  intro found
  have hreader : Config.standard.reader? = .ok Converter.standard.reader := rfl
  have hfound : Converter.standard.reader.read "a.c:3:7: bad (x)".toList
      (Label.reference (Text.trim "//a:b".toList)) = [found] := by decide +kernel
  have hlabel : Text.trim "//a:b".toList ≠ [] := by decide
  have hmnemonic : Text.trim "lint".toList ≠ [] := by decide
  obtain ⟨run, r, hrun, hr, hvalid, hsound⟩ := locations_valid Converter.standard hreader hlabel
    hmnemonic "a.c:3:7: bad (x)".toList none
  have hfindings : run.findings = [found] := by rw [eq_of_readRun hrun, hfound]
  refine ⟨run, r, hrun, hfindings, hr, ?_, hvalid, hsound⟩
  obtain rfl := (List.cons.inj hr).1
  rw [hfindings]
  rfl

end Converter

end LintFindings
