/-
Every finding that a report is read into is sound.

There are two ways into a finding.  A recognized line names a file, and no matcher
that a configuration can ask for lets a blank one through (`namesFiles_reader?`);
what else a match says may be anything, since findings are built by steps that keep
only what is sound.  An opaque finding is about the reference of a label, which is
never blank.  `sound_of_mem_read` puts the two together.
-/
import LintFindings.Config
import LintFindings.Proofs.Except
import LintFindings.Proofs.Finding
import LintFindings.Proofs.Label
import Mathlib

namespace LintFindings

/-! ### Matchers -/

/-- A matcher that recognizes no line of a blank file. -/
def Matcher.NamesFiles (m : Matcher) : Prop :=
  ∀ t found, m.matchLine? t = some found → Text.trim found.file ≠ []

theorem Located.namesFile {p : Located} {found : LineMatch} (h : p.lineMatch? = some found) :
    Text.trim found.file ≠ [] := by
  unfold Located.lineMatch? at h
  simp only [Option.bind_eq_bind, Option.bind_eq_some_iff] at h
  obtain ⟨file, hfile, _, _, _, _, _, _, hfound⟩ := h
  cases hfound
  exact Text.trim_ne_nil_of_trimmed? hfile

theorem Pattern.namesFile {groups : Text → Option Text} {found : LineMatch}
    (h : Pattern.lineMatch? groups = some found) : Text.trim found.file ≠ [] := by
  unfold Pattern.lineMatch? at h
  simp only [Option.bind_eq_bind, Option.bind_eq_some_iff] at h
  obtain ⟨file, hfile, _, _, _, _, _, _, _, _, _, _, _, _, _, _, hfound⟩ := h
  obtain ⟨t, -, htrim⟩ := Option.bind_eq_some_iff.mp hfile
  cases hfound
  exact Text.trim_ne_nil_of_trimmed? htrim

theorem Diagnostic.namesFile {d : Diagnostic} {found : LineMatch}
    (h : d.lineMatch? = some found) : Text.trim found.file ≠ [] := by
  unfold Diagnostic.lineMatch? at h
  simp only [Option.bind_eq_bind, Option.bind_eq_some_iff] at h
  obtain ⟨span, -, file, hfile, hfound⟩ := h
  cases hfound
  obtain ⟨rfl, hne⟩ := Text.trimmed?_eq_some_iff.mp hfile
  exact hne

theorem Format.namesFiles_matcher (f : Format) : f.matcher.NamesFiles := by
  intro t found h
  cases f with
  | gnu =>
      obtain ⟨p, -, hp⟩ := Option.bind_eq_some_iff.mp h
      exact Located.namesFile hp
  | compact =>
      obtain ⟨p, -, hp⟩ := Option.bind_eq_some_iff.mp h
      exact Located.namesFile hp
  | diagnostic =>
      obtain ⟨d, -, hd⟩ := Option.bind_eq_some_iff.mp h
      exact Diagnostic.namesFile hd

theorem Pattern.namesFiles_matcher (name : Text) (r : CompiledRegex) :
    (Pattern.matcher name r).NamesFiles := by
  intro t found h
  obtain ⟨groups, -, hgroups⟩ := Option.bind_eq_some_iff.mp h
  exact Pattern.namesFile hgroups

/-! ### Report readers -/

/-- A report reader all of whose matchers name files. -/
def ReportReader.NamesFiles (r : ReportReader) : Prop := ∀ m ∈ r.matchers, m.NamesFiles

theorem Config.namesFiles_patternMatcher? {engine : RegexEngine} {p : PatternSpec} {m : Matcher}
    (h : Config.patternMatcher? engine p = .ok m) : m.NamesFiles := by
  obtain ⟨r, -, rfl⟩ := Except.map_eq_ok.mp (Except.mapError_eq_ok.mp h)
  exact Pattern.namesFiles_matcher p.name r

theorem Config.namesFiles_formatMatcher? {name : Text} {m : Matcher}
    (h : Config.formatMatcher? name = .ok m) : m.NamesFiles := by
  unfold Config.formatMatcher? at h
  split at h
  · cases h
    exact Format.namesFiles_matcher _
  · cases h

/-- **Whatever a configuration asks for, no line of a blank file is recognized.** -/
theorem Config.namesFiles_reader? {engine : RegexEngine} {c : Config} {r : ReportReader}
    (h : c.reader? engine = .ok r) : r.NamesFiles := by
  obtain ⟨patterns, hpatterns, h⟩ := Except.bind_eq_ok.mp h
  obtain ⟨formats, hformats, h⟩ := Except.bind_eq_ok.mp h
  dsimp only at h
  split at h
  · cases h
  · cases h
    intro m hm
    rcases List.mem_append.mp hm with hm | hm
    · obtain ⟨p, -, hp⟩ := Except.exists_of_mem_mapM hpatterns hm
      exact Config.namesFiles_patternMatcher? hp
    · obtain ⟨name, -, hname⟩ := Except.exists_of_mem_mapM hformats hm
      exact Config.namesFiles_formatMatcher? hname

/-! ### Findings -/

namespace ReportReader

theorem sound_findingOf {m : LineMatch} (h : Text.trim m.file ≠ []) (severities : SeverityTable) :
    (findingOf severities m).Sound := by
  have hbegun := (Finding.about m.file (severities.resolve m.severity) m.message).begun_placedAt
    m.line m.column
  have hplaced := Finding.placed_through hbegun m.endLine m.endColumn
  exact Finding.sound_withHelpUri_withRule hplaced h m.rule m.helpUri

theorem sound_of_mem_lineFindings {r : ReportReader} (h : r.NamesFiles) {report : Text}
    {f : Finding} (hf : f ∈ r.lineFindings report) : f.Sound := by
  obtain ⟨line, -, hline⟩ := List.mem_filterMap.mp hf
  obtain ⟨found, hfound, rfl⟩ := Option.map_eq_some_iff.mp hline
  obtain ⟨m, hm, hmatch⟩ := List.exists_of_findSome?_eq_some hfound
  exact sound_findingOf (h m hm line found hmatch) r.severities

/-- **All findings of a report are sound**, whether they are recognized lines or the report
itself. -/
theorem sound_of_mem_read {r : ReportReader} (h : r.NamesFiles) {report artifact : Text}
    (hartifact : Text.trim artifact ≠ []) {f : Finding} (hf : f ∈ r.read report artifact) :
    f.Sound := by
  unfold read at hf
  split at hf
  · simp at hf
  · split at hf
    · split at hf
      · rw [List.mem_singleton.mp hf]
        exact Finding.sound_about hartifact .warning _
      · simp at hf
    · exact sound_of_mem_lineFindings h hf

end ReportReader

end LintFindings
