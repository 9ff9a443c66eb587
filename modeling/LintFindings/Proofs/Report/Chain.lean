/-
What the order of the matchers decides.

A line belongs to the first matcher that recognizes it, so a matcher behind the others only gets
the lines that they leave.  `sources` keeps the line of each finding: with a further matcher
there are more of them, but those whose lines the other matchers recognize are what they were
(`sources_eq_filter`).  A matcher that stands in front already gets no line at all
(`matchLine?_insert`).

The fallback looks at all lines at once.  While nothing is recognized it keeps the report whole, and
a further matcher ends this just if it recognizes a line (`chain_firstMatch`).
-/
import LintFindings.Proofs.Report.Lines

namespace LintFindings.ReportReader

variable {r : ReportReader} {m : Matcher} {report line : Text}

/-! ### One line -/

/-- A reader with a further matcher behind the ones that it has. -/
def withMatcher (r : ReportReader) (m : Matcher) : ReportReader :=
  { r with matchers := r.matchers ++ [m] }

theorem matchLine?_withMatcher (r : ReportReader) (m : Matcher) (line : Text) :
    (r.withMatcher m).matchLine? line = (r.matchLine? line).or (m.matchLine? line) := by
  show (r.matchers ++ [m]).findSome? (·.matchLine? line) = _
  rw [List.findSome?_append, List.findSome?_singleton, matchLine?]

theorem any_matchers_eq (r : ReportReader) (line : Text) :
    r.matchers.any (fun k => (k.matchLine? line).isSome) = (r.matchLine? line).isSome := by
  rw [matchLine?, List.isSome_findSome?]

/-- A second copy of a matcher gets no line, wherever it stands behind the first. -/
theorem matchLine?_insert {before between after : List Matcher} {k : Matcher}
    {severities : SeverityTable} {fallback : Bool} (line : Text) :
    matchLine? ⟨before ++ k :: (between ++ k :: after), severities, fallback⟩ line
      = matchLine? ⟨before ++ k :: (between ++ after), severities, fallback⟩ line := by
  unfold matchLine?
  simp only [List.findSome?_append, List.findSome?_cons]
  cases k.matchLine? line with
  | none => rfl
  | some found => rfl

/-! ### All lines -/

/-- The findings of the recognized lines, in their order, each with its line. -/
def sources (r : ReportReader) (report : Text) : List (Text × Finding) :=
  (shownLines report).filterMap fun line =>
    (r.matchLine? line).map fun found => (line, findingOf r.severities found)

theorem map_snd_sources (r : ReportReader) (report : Text) :
    (r.sources report).map Prod.snd = r.recognized report := by
  unfold sources recognized
  rw [List.map_filterMap]
  apply List.filterMap_congr
  intro line _
  rw [Option.map_map]
  rfl

/-- **A further matcher leaves the findings of the others as they are**, and adds some only for lines
that none of the others recognizes. -/
theorem sources_eq_filter (r : ReportReader) (m : Matcher) (report : Text) :
    r.sources report = ((r.withMatcher m).sources report).filter
      fun source => r.matchers.any fun k => (k.matchLine? source.1).isSome := by
  unfold sources
  rw [List.filter_filterMap]
  apply List.filterMap_congr
  intro line _
  rw [matchLine?_withMatcher]
  cases hline : r.matchLine? line with
  | none =>
      cases hfurther : m.matchLine? line with
      | none => rfl
      | some found => simp [any_matchers_eq, hline, Option.filter]
  | some found => simp [any_matchers_eq, hline, Option.filter, withMatcher]

theorem recognized_sublist (r : ReportReader) (m : Matcher) (report : Text) :
    (r.recognized report).Sublist ((r.withMatcher m).recognized report) := by
  rw [← map_snd_sources, ← map_snd_sources, sources_eq_filter r m]
  exact List.filter_sublist.map Prod.snd

/-- Where nothing is recognized, a further matcher has the report for itself. -/
theorem recognized_withMatcher (h : ¬ r.Recognizes report) (m : Matcher) :
    (r.withMatcher m).recognized report
      = ({ r with matchers := [m] } : ReportReader).recognized report := by
  unfold recognized
  apply List.filterMap_congr
  intro line hline
  have hnone : r.matchLine? line = none := by
    by_contra hsome
    exact h ⟨line, hline, Option.isSome_iff_ne_none.mpr hsome⟩
  have halone : ({ r with matchers := [m] } : ReportReader).matchLine? line = m.matchLine? line :=
    List.findSome?_singleton
  rw [matchLine?_withMatcher, hnone, Option.none_or, halone]
  rfl

theorem recognizes_withMatcher : (r.withMatcher m).Recognizes report ↔
    r.Recognizes report ∨ ∃ line ∈ shownLines report, (m.matchLine? line).isSome := by
  unfold Recognizes
  simp only [matchLine?_withMatcher, Option.isSome_or, Bool.or_eq_true, and_or_left, exists_or]

/-- **The first matcher wins, and further ones only add.**  A matcher behind the others leaves their
findings in place and adds some for lines that they do not recognize; one that stands in front
already adds nothing.  And where the others recognize nothing, so that the report is one opaque
finding, a further matcher replaces it by findings of its own just if it recognizes a line. -/
theorem chain_firstMatch (r : ReportReader) (m : Matcher) (report artifact : Text) :
    (∀ line found, r.matchLine? line = some found ↔
      ∃ before k after, r.matchers = before ++ k :: after ∧ k.matchLine? line = some found ∧
        ∀ j ∈ before, j.matchLine? line = none) ∧
    (r.recognized report).Sublist ((r.withMatcher m).recognized report) ∧
    (r.Recognizes report ∨ r.fallback = false →
      (r.read report artifact).Sublist ((r.withMatcher m).read report artifact)) ∧
    (r.sources report).map Prod.snd = r.recognized report ∧
    ((r.withMatcher m).sources report).map Prod.snd = (r.withMatcher m).recognized report ∧
    r.sources report = ((r.withMatcher m).sources report).filter
      (fun source => r.matchers.any fun k => (k.matchLine? source.1).isSome) ∧
    (∀ before k between after, r.matchers = before ++ k :: (between ++ after) →
      ({ r with matchers := before ++ k :: (between ++ k :: after) } : ReportReader).read
        report artifact = r.read report artifact) ∧
    (r.fallback = true → Text.trim report ≠ [] → ¬ r.Recognizes report →
      r.read report artifact = [opaqueFinding artifact (Text.trim report)] ∧
      ((∃ line ∈ shownLines report, (m.matchLine? line).isSome) →
        (r.withMatcher m).read report artifact
          = ({ r with matchers := [m] } : ReportReader).recognized report ∧
        (r.withMatcher m).read report artifact ≠ []) ∧
      ((∀ line ∈ shownLines report, m.matchLine? line = none) →
        (r.withMatcher m).read report artifact
          = [opaqueFinding artifact (Text.trim report)])) := by
  have hsublist := recognized_sublist r m report
  refine ⟨?_, hsublist, ?_, map_snd_sources r report, map_snd_sources (r.withMatcher m) report,
    sources_eq_filter r m report, ?_, ?_⟩
  · intro line found
    exact List.findSome?_eq_some_iff
  · intro hmatched
    rcases hmatched with hsome | hoff
    · have hsome' : (r.withMatcher m).Recognizes report :=
        recognizes_withMatcher.mpr (Or.inl hsome)
      rw [read_of_recognizes hsome, read_of_recognizes hsome']
      exact hsublist
    · have hoff' : (r.withMatcher m).fallback = false := hoff
      rw [read_of_no_fallback hoff, read_of_no_fallback hoff']
      exact hsublist
  · intro before k between after hmatchers
    obtain ⟨matchers, severities, fallback⟩ := r
    obtain rfl : matchers = before ++ k :: (between ++ after) := hmatchers
    apply read_congr
    · intro line _
      exact matchLine?_insert line
    · rfl
    · rfl
  · intro hon hne hnone
    have hwhole : r.read report artifact = [opaqueFinding artifact (Text.trim report)] := by
      rw [read_eq, if_pos ⟨hne, hnone, hon⟩]
    refine ⟨hwhole, ?_, ?_⟩
    · intro hsome
      have hsome' : (r.withMatcher m).Recognizes report :=
        recognizes_withMatcher.mpr (Or.inr hsome)
      have hread := read_of_recognizes hsome' artifact
      constructor
      · rw [hread, recognized_withMatcher hnone]
      · rw [hread]
        intro hnil
        exact recognized_eq_nil_iff.mp hnil hsome'
    · intro hall
      have hnone' : ¬ (r.withMatcher m).Recognizes report := by
        intro hsome
        rcases recognizes_withMatcher.mp hsome with hold | ⟨line, hline, hfurther⟩
        · exact hnone hold
        · rw [hall line hline] at hfurther
          cases hfurther
      rw [read_eq, if_pos ⟨hne, hnone', hon⟩]

/-- A reader for one format, a copy of its matcher, and the matcher of another format that ends the
fallback for one report and not for the other. -/
theorem chain_firstMatch_compact :
    let r : ReportReader := ⟨[Gnu.matcher], .plain, true⟩
    let copied : ReportReader := ⟨[Gnu.matcher, Gnu.matcher], .plain, true⟩
    let line := "b.js: line 1, col 2, Error - worse".toList
    let count := "2 problems".toList
    ¬ r.Recognizes line ∧ ¬ r.Recognizes count ∧
      (r.recognized ("a.c:3:7: bad\n".toList ++ line)).Sublist
        ((r.withMatcher Compact.matcher).recognized ("a.c:3:7: bad\n".toList ++ line)) ∧
      copied.read line [] = r.read line [] ∧
      r.read line [] = [opaqueFinding [] line] ∧
      (r.withMatcher Compact.matcher).read line []
        = ({ r with matchers := [Compact.matcher] } : ReportReader).recognized line ∧
      (r.withMatcher Compact.matcher).read count [] = [opaqueFinding [] count] := by
  intro r copied line count
  have hline : ¬ r.Recognizes line := by decide +kernel
  have hcount : ¬ r.Recognizes count := by decide +kernel
  have hsome : ∃ t ∈ shownLines line, (Compact.matcher.matchLine? t).isSome := by decide +kernel
  have hall : ∀ t ∈ shownLines count, Compact.matcher.matchLine? t = none := by decide +kernel
  obtain ⟨-, -, -, -, -, -, hcopy, hfallback⟩ := chain_firstMatch r Compact.matcher line []
  obtain ⟨-, -, -, -, -, -, -, hfallback'⟩ := chain_firstMatch r Compact.matcher count []
  obtain ⟨-, hsublist, -⟩ :=
    chain_firstMatch r Compact.matcher ("a.c:3:7: bad\n".toList ++ line) []
  obtain ⟨hwhole, hends, -⟩ := hfallback rfl (by decide +kernel) hline
  obtain ⟨-, -, hstays⟩ := hfallback' rfl (by decide +kernel) hcount
  exact ⟨hline, hcount, hsublist, hcopy [] Gnu.matcher [] [] rfl, hwhole, (hends hsome).1,
    hstays hall⟩

end LintFindings.ReportReader
