/-
The layout of a report is not read.

What is recognized in a report depends on its solid lines alone, and so does whether it is
blank.  Reports with the same lines, which are those that differ in nothing but layout, are
therefore read into the same findings, with the one exception that there always is: an opaque
finding keeps the whole report for its message, and so the layout of the report, too
(`read_layout`).
-/
import LintFindings.Proofs.Report.Lines
import LintFindings.Proofs.Text.Layout

namespace LintFindings.ReportReader

variable {r : ReportReader} {first second : Text}

theorem recognized_congr (h : Text.solidLines first = Text.solidLines second) :
    r.recognized first = r.recognized second := by
  rw [recognized, recognized, shownLines_eq_solidLines, shownLines_eq_solidLines, h]

theorem recognizes_congr (h : Text.solidLines first = Text.solidLines second) :
    r.Recognizes first ↔ r.Recognizes second := by
  unfold Recognizes
  rw [shownLines_eq_solidLines, shownLines_eq_solidLines, h]

/-- **Layout does not matter.**  Two reports whose lines are the same when they are trimmed and
the blank ones are left out are read into the same findings, unless each of them is one opaque
finding; and then the two differ in their messages only. -/
theorem read_layout (r : ReportReader) (artifact : Text)
    (h : ((Text.lines first).map Text.trim).filter (· ≠ [])
      = ((Text.lines second).map Text.trim).filter (· ≠ [])) :
    Text.Relaid first second ∧
    (r.Recognizes first ↔ r.Recognizes second) ∧
    (Text.trim first = [] ↔ Text.trim second = []) ∧
    (r.Recognizes first ∨ r.fallback = false →
      r.read first artifact = r.read second artifact) ∧
    (Text.trim first = [] → r.read first artifact = [] ∧ r.read second artifact = []) ∧
    (Text.trim first ≠ [] → ¬ r.Recognizes first → r.fallback = true →
      r.read first artifact = [opaqueFinding artifact (Text.trim first)] ∧
      r.read second artifact =
        [{ opaqueFinding artifact (Text.trim first) with message := Text.trim second }]) := by
  rw [← Text.solidLines_eq_lines, ← Text.solidLines_eq_lines] at h
  have hrecognizes : r.Recognizes first ↔ r.Recognizes second := recognizes_congr h
  have hblank : Text.trim first = [] ↔ Text.trim second = [] := by
    rw [← Text.solidLines_eq_nil_iff, ← Text.solidLines_eq_nil_iff, h]
  refine ⟨Text.relaid_iff.mpr h, hrecognizes, hblank, ?_, ?_, ?_⟩
  · intro hsame
    have hrecognized : r.recognized first = r.recognized second := recognized_congr h
    rcases hsame with hsome | hoff
    · rw [read_of_recognizes hsome, read_of_recognizes (hrecognizes.mp hsome), hrecognized]
    · rw [read_of_no_fallback hoff, read_of_no_fallback hoff, hrecognized]
  · intro hnil
    exact ⟨read_of_blank hnil artifact, read_of_blank (hblank.mp hnil) artifact⟩
  · intro hne hnone hon
    have hne' : Text.trim second ≠ [] := mt hblank.mpr hne
    have hnone' : ¬ r.Recognizes second := mt hrecognizes.mpr hnone
    constructor
    · rw [read_eq, if_pos ⟨hne, hnone, hon⟩]
    · rw [read_eq, if_pos ⟨hne', hnone', hon⟩]
      rfl

/-- A report and the same one with other line endings, margins and blank lines, first with a
recognized line and then without. -/
theorem read_layout_standard :
    let plain := "a.c:3:7: bad (x)\n2 problems".toList
    let wide := "\r\n\t a.c:3:7: bad (x) \r\n\n  2 problems\x0b\r\n".toList
    let count := "2 problems".toList
    standard.Recognizes plain ∧ ¬ standard.Recognizes count ∧ Text.trim count ≠ [] ∧
      ((Text.lines plain).map Text.trim).filter (· ≠ [])
        = ((Text.lines wide).map Text.trim).filter (· ≠ []) ∧
      standard.read plain [] = standard.read wide [] ∧
      standard.read count [] = [opaqueFinding [] count] ∧
      standard.read (count ++ ['\n']) [] = [opaqueFinding [] count] := by
  intro plain wide count
  have hplain : standard.Recognizes plain := by decide +kernel
  have hcount : ¬ standard.Recognizes count := by decide +kernel
  have hne : Text.trim count ≠ [] := by decide
  have hlines : ((Text.lines plain).map Text.trim).filter (· ≠ [])
      = ((Text.lines wide).map Text.trim).filter (· ≠ []) := by decide +kernel
  have hend : ((Text.lines count).map Text.trim).filter (· ≠ [])
      = ((Text.lines (count ++ ['\n'])).map Text.trim).filter (· ≠ []) := by decide +kernel
  obtain ⟨-, -, -, hsame, -, -⟩ := read_layout standard [] hlines
  obtain ⟨-, -, -, -, -, hopaque⟩ := read_layout standard [] hend
  obtain ⟨hfirst, hsecond⟩ := hopaque hne hcount rfl
  exact ⟨hplain, hcount, hne, hlines, hsame (.inl hplain), hfirst, hsecond⟩

end LintFindings.ReportReader
