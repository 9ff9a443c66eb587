/-
When a summary has one line for each finding.

A summary is told `LineByLine` if it is a heading, what is said of each finding alone on a line of
its own, and a closing line.  It is so just if no finding has a line feed in its file, its rule or
its message (`lineByLine_iff`).

The lines of a report have no line feeds, and a verbatim matcher finds none there.  Two ways are
left: a report that is kept whole has the line feeds between its lines, and a diagnostic may have
one in its texts, where it is written as an escape.  `Breaks` is either of them, and whatever else
a report says, its summary has one line for each finding (`lineByLine_unless_breaks`).
-/
import LintFindings.Proofs.Converter
import LintFindings.Proofs.Format.Diagnostic
import LintFindings.Proofs.Label
import LintFindings.Proofs.Report.Lines
import LintFindings.Proofs.Report.Verbatim
import LintFindings.Proofs.Summary.Closing

namespace LintFindings

/-! ### Summaries -/

namespace Text

theorem splitOn_lines {lines : List Text} (h : ∀ line ∈ lines, '\n' ∉ line) (t : Text) :
    (lines.flatMap (· ++ ['\n']) ++ t).splitOn '\n' = lines ++ t.splitOn '\n' := by
  induction lines with
  | nil => rfl
  | cons line lines ih =>
      obtain ⟨hline, hlines⟩ := List.forall_mem_cons.mp h
      rw [List.flatMap_cons, List.append_assoc, List.append_assoc, List.singleton_append,
        splitOn_append_newline, List.splitOn_eq_singleton hline, ih hlines]
      rfl

end Text

namespace Finding

variable {f : Finding}

/-- What is said of a finding is on one line if its texts are. -/
theorem newline_notMem_said_iff : '\n' ∉ f.said false ↔ f.Lacks '\n' := by
  have hplace : '\n' ∉ f.place ↔ '\n' ∉ f.filePath := by
    refine ⟨fun h hfile => h ?_, fun h => notMem_place h (by decide) (by decide)⟩
    unfold place
    split <;> simp [hfile]
  have hrule : '\n' ∉ f.saidRule false ↔ ∀ rule ∈ f.ruleId, '\n' ∉ rule := by
    unfold saidRule
    cases f.ruleId <;> simp [Style.paint]
  have htag : '\n' ∉ f.severity.tag false := by cases f.severity <;> decide
  have hparts : '\n' ∉ f.said false ↔
      '\n' ∉ f.place ∧ '\n' ∉ f.message ∧ '\n' ∉ f.saidRule false := by
    simp [said, Style.paint, htag]
  rw [hparts, hplace, hrule]
  constructor
  · rintro ⟨hfile, hmessage, hrules⟩
    exact ⟨hfile, hrules, hmessage⟩
  · intro h
    exact ⟨h.filePath, h.message, h.ruleId⟩

end Finding

namespace Run

variable {run : Run}

/-- The first line of a summary without its line feed and its colors. -/
def title (run : Run) : Text := run.targetLabel ++ " (".toList ++ run.toolName ++ [')']

/-- A summary is a heading, a line for each finding, and a closing line. -/
def LineByLine (run : Run) : Prop :=
  ∃ last told, run.Closes last told ∧ (run.summary false).splitOn '\n' =
    run.title :: (run.findings.map (Finding.said false) ++ [last, []])

theorem summary_eq_lines {last : Text} (h : run.closing false = last ++ ['\n']) :
    run.summary false =
      (run.title :: run.findings.map (Finding.said false)).flatMap (· ++ ['\n']) ++
        (last ++ ['\n']) := by
  have hheading : run.heading false = run.title ++ ['\n'] := by
    simp [heading, title, Style.paint]
  have hlines : run.findings.flatMap (Finding.summaryLine false) =
      (run.findings.map (Finding.said false)).flatMap (· ++ ['\n']) := by
    rw [List.flatMap_map]
    exact congrArg (List.flatMap · run.findings) (funext (Finding.summaryLine_eq false))
  rw [summary, hheading, hlines, h, List.flatMap_cons]

/-- **A summary has one line for each finding just if no finding has a line feed.** -/
theorem lineByLine_iff (hlabel : '\n' ∉ run.targetLabel) (htool : '\n' ∉ run.toolName) :
    run.LineByLine ↔ ∀ f ∈ run.findings, f.Lacks '\n' := by
  constructor
  · rintro ⟨last, told, -, hlines⟩ f hf
    have hmem : f.said false ∈ (run.summary false).splitOn '\n' := by
      rw [hlines]
      exact List.mem_cons_of_mem _ (List.mem_append_left _ (List.mem_map_of_mem hf))
    rw [List.splitOn, ← Text.pieces_eq_splitOnP] at hmem
    refine Finding.newline_notMem_said_iff.mp fun hnewline => ?_
    exact absurd (Text.sep_of_mem_pieces hmem '\n' hnewline) (by decide)
  · intro h
    obtain ⟨last, told, -, hcloses, -, -, hclosing⟩ := run.exists_closes false
    have htitle : '\n' ∉ run.title := by simp [title, hlabel, htool]
    have hsaid : ∀ line ∈ run.title :: run.findings.map (Finding.said false), '\n' ∉ line := by
      refine List.forall_mem_cons.mpr ⟨htitle, List.forall_mem_map.mpr ?_⟩
      intro f hf
      exact Finding.newline_notMem_said_iff.mpr (h f hf)
    refine ⟨last, told, hcloses, ?_⟩
    rw [summary_eq_lines hclosing, Text.splitOn_lines hsaid, Text.splitOn_append_newline,
      List.splitOn_eq_singleton hcloses.newline_notMem, List.splitOn_nil]
    rfl

end Run

/-! ### Reports -/

/-- A diagnostic about a named file with a line feed in its file, its message or its code. -/
def Diagnostic.Broken (d : Diagnostic) : Prop :=
  ∃ span, Diagnostic.Main d.spans span ∧ Text.trim span.fileName ≠ [] ∧
    ('\n' ∈ span.fileName ∨ '\n' ∈ d.message ∨
      ∃ code, d.code.bind Text.trimmed? = some code ∧ '\n' ∈ code)

namespace ReportReader

variable {r : ReportReader} {report artifact line : Text}

/-- A report that is not told line by line: it is kept whole and has several lines, or a diagnostic
is the first to be found on a line and has a line feed in its texts. -/
inductive Breaks (r : ReportReader) (report : Text) : Prop
  | whole (hfallback : r.fallback = true) (hnone : ¬ r.Recognizes report)
      (hnewline : '\n' ∈ Text.trim report)
  | diagnostic {front back : List Matcher} {line : Text} {d : Diagnostic}
      (hline : line ∈ shownLines report) (hsplit : r.matchers = front ++ Diagnostic.matcher :: back)
      (hfront : ∀ m ∈ front, m.matchLine? line = none) (hd : Diagnostic.ofLine? line = some d)
      (hbroken : d.Broken)

theorem newline_notMem_of_shown (h : line ∈ shownLines report) : '\n' ∉ line := by
  rw [shownLines_eq_solidLines] at h
  obtain ⟨piece, hpiece, htrim⟩ := List.mem_filterMap.mp h
  intro hnewline
  have hmem := Text.subset_of_trimmed? htrim (List.Subset.refl piece) hnewline
  exact absurd (Text.sep_of_mem_pieces hpiece '\n' hmem) (by decide)

theorem lacks_findingOf_iff {m : LineMatch} {severities : SeverityTable} {c : Char} :
    (findingOf severities m).Lacks c ↔
      c ∉ m.file ∧ c ∉ m.message ∧ ∀ rule ∈ m.rule.bind Text.trimmed?, c ∉ rule := by
  constructor
  · intro h
    exact ⟨h.filePath, h.message, h.ruleId⟩
  · rintro ⟨hfile, hmessage, hrule⟩
    exact ⟨hfile, hrule, hmessage⟩

theorem lacks_of_within {m : LineMatch} (h : m.Within line) (hline : '\n' ∉ line)
    (severities : SeverityTable) : (findingOf severities m).Lacks '\n' := by
  refine lacks_findingOf_iff.mpr
    ⟨fun hmem => hline (h.file hmem), fun hmem => hline (h.message hmem), ?_⟩
  intro rule hrule hmem
  obtain ⟨written, hwritten, htrim⟩ := Option.bind_eq_some_iff.mp hrule
  exact hline (Text.subset_of_trimmed? htrim (h.rule written hwritten) hmem)

/-- The finding of a diagnostic has a line feed just if the diagnostic is broken. -/
theorem broken_iff {d : Diagnostic} (severities : SeverityTable) : d.Broken ↔
    ∃ m, d.lineMatch? = some m ∧ ¬ (findingOf severities m).Lacks '\n' := by
  simp only [Diagnostic.lineMatch?_eq_some_iff, lacks_findingOf_iff]
  constructor
  · rintro ⟨span, hspan, hne, hnewline⟩
    refine ⟨_, ⟨span, hspan, hne, rfl⟩, ?_⟩
    rintro ⟨hfile, hmessage, hrule⟩
    rcases hnewline with hmem | hmem | ⟨code, hcode, hmem⟩
    · exact hfile hmem
    · exact hmessage hmem
    · exact hrule code hcode hmem
  · rintro ⟨m, ⟨span, hspan, hne, rfl⟩, hlacks⟩
    refine ⟨span, hspan, hne, ?_⟩
    by_contra hnone
    obtain ⟨hfile, hmessage, hcode⟩ := by simpa only [not_or] using hnone
    exact hlacks ⟨hfile, hmessage, fun rule hrule hmem => hcode ⟨rule, hrule, hmem⟩⟩

theorem mem_recognized {f : Finding} : f ∈ r.recognized report ↔
    ∃ line ∈ shownLines report, ∃ m, r.matchLine? line = some m ∧
      findingOf r.severities m = f := by
  simp only [recognized, List.mem_filterMap, Option.map_eq_some_iff]

/-- A recognized line that has a broken diagnostic is the one way to a line feed. -/
theorem exists_broken {m : LineMatch}
    (hmatchers : ∀ k ∈ r.matchers, k.Verbatim ∨ k = Diagnostic.matcher)
    (hline : line ∈ shownLines report) (hm : r.matchLine? line = some m)
    (hlacks : ¬ (findingOf r.severities m).Lacks '\n') : r.Breaks report := by
  obtain ⟨front, k, back, hsplit, hk, hfront⟩ := List.findSome?_eq_some_iff.mp hm
  rcases hmatchers k (by simp [hsplit]) with hverbatim | rfl
  · have hwithin := hverbatim line m hk
    exact absurd (lacks_of_within hwithin (newline_notMem_of_shown hline) _) hlacks
  · obtain ⟨d, hd, hfound⟩ := Option.bind_eq_some_iff.mp hk
    exact .diagnostic hline hsplit hfront hd ((broken_iff r.severities).mpr ⟨m, hfound, hlacks⟩)

/-- A broken diagnostic that is found first makes a finding with a line feed. -/
theorem exists_recognized {front back : List Matcher} {d : Diagnostic}
    (hline : line ∈ shownLines report) (hsplit : r.matchers = front ++ Diagnostic.matcher :: back)
    (hfront : ∀ m ∈ front, m.matchLine? line = none) (hd : Diagnostic.ofLine? line = some d)
    (hbroken : d.Broken) : ∃ f ∈ r.recognized report, ¬ f.Lacks '\n' := by
  obtain ⟨m, hm, hlacks⟩ := (broken_iff r.severities).mp hbroken
  have hfound : Diagnostic.matcher.matchLine? line = some m :=
    Option.bind_eq_some_iff.mpr ⟨d, hd, hm⟩
  have hmatch : r.matchLine? line = some m :=
    List.findSome?_eq_some_iff.mpr ⟨front, _, back, hsplit, hfound, hfront⟩
  exact ⟨_, mem_recognized.mpr ⟨line, hline, m, hmatch, rfl⟩, hlacks⟩

/-- **What is read of a report has no line feeds unless the report breaks.** -/
theorem lacks_iff_not_breaks (hmatchers : ∀ m ∈ r.matchers, m.Verbatim ∨ m = Diagnostic.matcher)
    (hartifact : '\n' ∉ artifact) :
    (∀ f ∈ r.read report artifact, f.Lacks '\n') ↔ ¬ r.Breaks report := by
  rw [read_eq]
  split
  · rename_i hopaque
    obtain ⟨-, hnone, hfallback⟩ := hopaque
    rw [List.forall_mem_singleton]
    constructor
    · rintro h (⟨-, -, hnewline⟩ | ⟨hline, hsplit, hfront, hd, hbroken⟩)
      · exact h.message hnewline
      · obtain ⟨f, hf, -⟩ := exists_recognized hline hsplit hfront hd hbroken
        rw [recognized_eq_nil_iff.mpr hnone] at hf
        exact List.not_mem_nil hf
    · intro h
      exact ⟨hartifact, nofun, fun hnewline => h (.whole hfallback hnone hnewline)⟩
  · rename_i hread
    constructor
    · rintro h (⟨hfallback, hnone, hnewline⟩ | ⟨hline, hsplit, hfront, hd, hbroken⟩)
      · exact hread ⟨List.ne_nil_of_mem hnewline, hnone, hfallback⟩
      · obtain ⟨f, hf, hlacks⟩ := exists_recognized hline hsplit hfront hd hbroken
        exact hlacks (h f hf)
    · intro h f hf
      obtain ⟨line, hline, m, hm, rfl⟩ := mem_recognized.mp hf
      by_contra hlacks
      exact h (exists_broken hmatchers hline hm hlacks)

end ReportReader

/-! ### Runs of reports -/

theorem Label.newline_notMem_reference (label : Text) : '\n' ∉ reference label :=
  notMem_of_encoded (fun s hs => ((pathOnly_reference label).encoded s hs).1) (by decide)
    (by decide) (by decide) (by decide)

namespace Converter

/-- **The summary of a report has one line for each finding unless the report breaks.** -/
theorem lineByLine_unless_breaks {engine : RegexEngine} {config : Config} (c : Converter)
    (hreader : config.reader? engine = .ok c.reader) {label mnemonic : Text}
    (hlabel : Text.trim label ≠ []) (hmnemonic : Text.trim mnemonic ≠ []) (hline : '\n' ∉ label)
    (hline' : '\n' ∉ mnemonic) (report : Text) :
    ∃ run, c.readRun label mnemonic report = .ok run ∧
      (run.LineByLine ↔ ¬ c.reader.Breaks report) := by
  have hartifact := Label.newline_notMem_reference (Text.trim label)
  have htitle (t : Text) (ht : '\n' ∉ t) : '\n' ∉ Text.trim t := fun hmem =>
    ht ((Text.trim_isInfix t).subset hmem)
  rw [readRun_eq, if_neg hlabel, if_neg hmnemonic]
  refine ⟨_, rfl, ?_⟩
  rw [Run.lineByLine_iff (htitle label hline) (htitle mnemonic hline')]
  exact ReportReader.lacks_iff_not_breaks (Config.verbatim_or_diagnostic hreader) hartifact

/-- Two lines of which one is recognized: the summary tells the finding of that one. -/
theorem lineByLine_unless_breaks_standard :
    let report := "a.c:3:7: bad (x)\n2 problems".toList
    Config.standard.reader? = .ok standard.reader ∧
      ∃ run, standard.readRun "//a:b".toList "lint".toList report = .ok run ∧ run.LineByLine := by
  intro report
  have hreader : Config.standard.reader? = .ok standard.reader := rfl
  have hlabel : Text.trim "//a:b".toList ≠ [] ∧ '\n' ∉ "//a:b".toList := by decide
  have hmnemonic : Text.trim "lint".toList ≠ [] ∧ '\n' ∉ "lint".toList := by decide
  obtain ⟨run, hrun, hiff⟩ := lineByLine_unless_breaks standard hreader hlabel.1 hmnemonic.1
    hlabel.2 hmnemonic.2 report
  refine ⟨hreader, run, hrun, hiff.mpr ?_⟩
  have hsome : standard.reader.Recognizes report := by decide +kernel
  have hplain : ∀ line ∈ ReportReader.shownLines report, Diagnostic.ofLine? line = none := by
    decide +kernel
  rintro (⟨-, hnone, -⟩ | ⟨hline, -, -, hd, -⟩)
  · exact hnone hsome
  · rw [hplain _ hline] at hd
    cases hd

/-- A report of two lines that is kept whole takes two lines of the summary. -/
theorem whole_report_on_two_lines :
    let report := "Something went wrong\nwith the linter".toList
    ∃ run, standard.readRun "//a:b".toList "vet".toList report = .ok run ∧
      run.findings.length = 1 ∧ ¬ run.LineByLine ∧ (run.summary false).splitOn '\n' =
        ["//a:b (vet)".toList, "WARN a/b - Something went wrong".toList, "with the linter".toList,
          "OK 1 warnings".toList, []] := by
  intro report
  have hread : standard.reader.read report "a/b".toList =
      [ReportReader.opaqueFinding "a/b".toList report] := by decide +kernel
  have hrun : standard.readRun "//a:b".toList "vet".toList report = .ok
      { toolName := "vet".toList, targetLabel := "//a:b".toList
        findings := [ReportReader.opaqueFinding "a/b".toList report] } := by
    rw [← hread]
    rfl
  refine ⟨_, hrun, rfl, ?_, by decide +kernel⟩
  intro hlines
  have hlacks := (Run.lineByLine_iff (by decide) (by decide)).mp hlines _ List.mem_cons_self
  exact hlacks.message (by decide)

end Converter

end LintFindings
