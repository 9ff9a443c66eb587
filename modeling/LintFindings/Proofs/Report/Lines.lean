/-
A report is read line by line.

The matchers of a reader are shown the lines of the trimmed report, each trimmed, and
no blank ones.  What they recognize depends on the line alone, so a line feed between
two reports keeps apart what is recognized on either side of it
(`recognized_append_newline`).

What is recognized is all that a reader answers, with one exception: a report that is
not blank and has no recognized line is one opaque finding, if there is a fallback.
`read_eq` says just this, for matchers that may be any functions, and the rest follows
from it.
-/
import LintFindings.Report
import LintFindings.Proofs.Text.Lines

namespace LintFindings.ReportReader

variable {r : ReportReader} {report artifact : Text}

/-! ### Recognized lines -/

/-- The lines that the matchers are shown. -/
def shownLines (report : Text) : List Text :=
  ((Text.lines (Text.trim report)).map Text.trim).filter (· ≠ [])

/-- Whether some line of a report is recognized. -/
def Recognizes (r : ReportReader) (report : Text) : Prop :=
  ∃ line ∈ shownLines report, (r.matchLine? line).isSome

instance (r : ReportReader) (report : Text) : Decidable (r.Recognizes report) :=
  inferInstanceAs (Decidable (∃ line ∈ shownLines report, (r.matchLine? line).isSome))

/-- The findings of the recognized lines, in their order. -/
def recognized (r : ReportReader) (report : Text) : List Finding :=
  (shownLines report).filterMap fun line => (r.matchLine? line).map (findingOf r.severities)

theorem shownLines_eq_solidLines (report : Text) :
    shownLines report = Text.solidLines report := by
  rw [shownLines, ← Text.solidLines_eq_lines, Text.solidLines_trim]

theorem lineFindings_trim (r : ReportReader) (report : Text) :
    r.lineFindings (Text.trim report) = r.recognized report := by
  rw [lineFindings, recognized, Text.solidLines_trim, shownLines_eq_solidLines]

/-- A part in which nothing is recognized contributes nothing. -/
theorem recognized_eq_nil_iff : r.recognized report = [] ↔ ¬ r.Recognizes report := by
  simp [recognized, Recognizes, Option.isSome_iff_ne_none]

theorem recognized_of_blank (h : Text.trim report = []) : r.recognized report = [] := by
  rw [← lineFindings_trim, h]
  rfl

/-- **What is recognized on one side of a line feed does not depend on the other.** -/
theorem recognized_append_newline (r : ReportReader) (first second : Text) :
    r.recognized (first ++ '\n' :: second) = r.recognized first ++ r.recognized second := by
  simp only [recognized, shownLines_eq_solidLines, Text.solidLines_append_newline,
    List.filterMap_append]

/-! ### Answers -/

/-- **What a reader answers**: the recognized lines or, where there are none, perhaps the
report as a whole. -/
theorem read_eq (r : ReportReader) (report artifact : Text) :
    r.read report artifact =
      if Text.trim report ≠ [] ∧ ¬ r.Recognizes report ∧ r.fallback = true then
        [opaqueFinding artifact (Text.trim report)]
      else r.recognized report := by
  unfold read
  cases htrim : Text.trimmed? report with
  | none =>
      have hblank := Text.trimmed?_eq_none_iff.mp htrim
      rw [if_neg fun h => h.1 hblank, recognized_of_blank hblank]
  | some u =>
      obtain ⟨rfl, hne⟩ := Text.trimmed?_eq_some_iff.mp htrim
      dsimp only
      rw [lineFindings_trim]
      cases hrecognized : r.recognized report with
      | nil =>
          have hnone := recognized_eq_nil_iff.mp hrecognized
          simp [hne, hnone]
      | cons f fs =>
          have hsome : r.Recognizes report := by
            by_contra hnone
            rw [recognized_eq_nil_iff.mpr hnone] at hrecognized
            exact List.cons_ne_nil f fs hrecognized.symm
          simp [hsome]

theorem read_of_recognizes (h : r.Recognizes report) (artifact : Text) :
    r.read report artifact = r.recognized report := by
  rw [read_eq, if_neg fun hno => hno.2.1 h]

theorem read_of_no_fallback (h : r.fallback = false) (report artifact : Text) :
    r.read report artifact = r.recognized report := by
  rw [read_eq, if_neg]
  intro hno
  rw [h] at hno
  exact Bool.noConfusion hno.2.2

theorem read_of_blank (h : Text.trim report = []) (artifact : Text) :
    r.read report artifact = [] := by
  rw [read_eq, if_neg fun hno => hno.1 h, recognized_of_blank h]

theorem recognizes_append_newline (first second : Text) :
    r.Recognizes (first ++ '\n' :: second) ↔ r.Recognizes first ∨ r.Recognizes second := by
  simp only [Recognizes, shownLines_eq_solidLines, Text.solidLines_append_newline,
    List.mem_append, or_and_right, exists_or]

/-- Only what the matchers make of the lines of a report counts. -/
theorem read_congr {r' : ReportReader}
    (hline : ∀ line ∈ shownLines report, r.matchLine? line = r'.matchLine? line)
    (hseverities : r.severities = r'.severities) (hfallback : r.fallback = r'.fallback)
    (artifact : Text) : r.read report artifact = r'.read report artifact := by
  have hrecognized : r.recognized report = r'.recognized report := by
    refine List.filterMap_congr ?_
    intro line hmem
    rw [hline line hmem, hseverities]
  have hsome : r.Recognizes report ↔ r'.Recognizes report := by
    rw [← not_iff_not, ← recognized_eq_nil_iff, ← recognized_eq_nil_iff, hrecognized]
  simp only [read_eq, hrecognized, hsome, hfallback]

/-- **Reading is compositional.**  With or without a fallback, two reports with a line feed
between them say what the one and then the other says; only where neither has a recognized line
is there an opaque finding, and then it is the only one. -/
theorem read_compositional (r : ReportReader) (artifact : Text) :
    (∀ first second, r.fallback = false →
      r.read (first ++ '\n' :: second) artifact
        = r.read first artifact ++ r.read second artifact) ∧
    (∀ first second, r.fallback = true → r.Recognizes first ∨ r.Recognizes second →
      r.read (first ++ '\n' :: second) artifact
        = r.recognized first ++ r.recognized second) ∧
    (∀ report, ¬ r.Recognizes report → r.recognized report = []) ∧
    (∀ report, Text.trim report = [] → r.read report artifact = []) ∧
    (∀ report, Text.trim report ≠ [] → ¬ r.Recognizes report → r.fallback = true →
      r.read report artifact =
        [{ filePath := artifact, line := none, column := none, endLine := none,
           endColumn := none, ruleId := none, helpUri := none, severity := .warning,
           message := Text.trim report }]) ∧
    (∀ report, r.Recognizes report → r.read report artifact = r.recognized report) := by
  refine ⟨?_, ?_, ?_, ?_, ?_, ?_⟩
  · intro first second hoff
    rw [read_of_no_fallback hoff, read_of_no_fallback hoff, read_of_no_fallback hoff,
      recognized_append_newline]
  · intro first second _ hsome
    rw [read_of_recognizes ((recognizes_append_newline first second).mpr hsome),
      recognized_append_newline]
  · intro report
    exact recognized_eq_nil_iff.mpr
  · intro report hblank
    exact read_of_blank hblank artifact
  · intro report hne hnone hon
    rw [read_eq, if_pos ⟨hne, hnone, hon⟩]
    rfl
  · intro report hsome
    exact read_of_recognizes hsome artifact

/-- A recognized line and one that is not, with a fallback and without. -/
theorem read_compositional_standard :
    let on := standard
    let off : ReportReader := { standard with fallback := false }
    let first := "a.c:3:7: bad (x)".toList
    let second := "2 problems".toList
    on.fallback = true ∧ off.fallback = false ∧ on.Recognizes first ∧ ¬ on.Recognizes second ∧
      Text.trim second ≠ [] ∧
      off.read (first ++ '\n' :: second) [] = off.read first [] ++ off.read second [] ∧
      on.read (first ++ '\n' :: second) [] = on.recognized first ++ on.recognized second ∧
      on.recognized second = [] ∧
      on.read second [] = [opaqueFinding [] "2 problems".toList] ∧
      on.read first [] = on.recognized first := by
  intro on off first second
  have hfirst : on.Recognizes first := by decide +kernel
  have hsecond : ¬ on.Recognizes second := by decide +kernel
  have hne : Text.trim second ≠ [] := by decide
  obtain ⟨-, happend, hnothing, -, hopaque, hread⟩ := read_compositional on []
  obtain ⟨hoff, -⟩ := read_compositional off []
  exact ⟨rfl, rfl, hfirst, hsecond, hne, hoff first second rfl,
    happend first second rfl (.inl hfirst), hnothing second hsecond,
    hopaque second hne hsecond rfl, hread first hfirst⟩

end LintFindings.ReportReader
