/-
What a word for a severity means, and which severities findings have.

Words are compared in their normal form, so several aliases may be for one word; `Means` says that
the last of them counts, and that a word without an alias has its known meaning.  The table of a
list of aliases resolves each word to what it means (`resolve_eq_iff`), and does not mind margins
and ASCII case (`resolve_of_variant`).

No known meaning is no severity at all, and neither is what is assumed where a line names none.  So
a finding is without severity only where an alias says so, and this goes for the results of the
document that is written too.
-/
import LintFindings.Proofs.Config.Reader
import LintFindings.Proofs.Converter
import LintFindings.Proofs.Report.Lines

namespace LintFindings

/-! ### Words -/

namespace SeverityTable

variable {aliases : List (Text × Severity)} {token token' : Text} {s : Severity}

/-- What a word means: what the last alias in its normal form says or, if it has no alias, its
known meaning. -/
inductive Means (aliases : List (Text × Severity)) (token : Text) : Severity → Prop
  | aliased {front back : List (Text × Severity)} {word : Text} {s : Severity}
      (hsplit : aliases = front ++ (word, s) :: back)
      (hword : Text.normalize word = Text.normalize token)
      (hlast : ∀ entry ∈ back, Text.normalize entry.1 ≠ Text.normalize token) :
      Means aliases token s
  | known (hnone : ∀ entry ∈ aliases, Text.normalize entry.1 ≠ Text.normalize token) :
      Means aliases token (.ofToken token)

theorem exists_means (aliases : List (Text × Severity)) (token : Text) :
    ∃ s, Means aliases token s := by
  induction aliases using List.reverseRecOn with
  | nil => exact ⟨_, .known (List.forall_mem_nil _)⟩
  | append_singleton aliases last ih =>
      by_cases hlast : Text.normalize last.1 = Text.normalize token
      · exact ⟨last.2, .aliased rfl hlast (List.forall_mem_nil _)⟩
      · obtain ⟨s, hs⟩ := ih
        refine ⟨s, ?_⟩
        cases hs with
        | @aliased front back word s hsplit hword hback =>
            have hsplit' : aliases ++ [last] = front ++ (word, s) :: (back ++ [last]) := by
              rw [hsplit, List.append_assoc, List.cons_append]
            exact .aliased hsplit' hword
              (List.forall_mem_append.mpr ⟨hback, List.forall_mem_singleton.mpr hlast⟩)
        | known hnone =>
            exact .known (List.forall_mem_append.mpr ⟨hnone, List.forall_mem_singleton.mpr hlast⟩)

theorem lookup_aliases_concat (aliases : List (Text × Severity)) (last : Text × Severity)
    (k : Text) : (ofAliases (aliases ++ [last])).aliases.lookup k =
      if k = Text.normalize last.1 then some last.2 else (ofAliases aliases).aliases.lookup k := by
  simp only [ofAliases, TextMap.lookup_ofPairs]
  rw [List.map_append, List.reverse_append, List.map_singleton, List.reverse_singleton,
    List.singleton_append, TextMap.lookup_cons]

theorem lookup_aliases_of_forall_ne {back : List (Text × Severity)} {k : Text}
    (h : ∀ entry ∈ back, Text.normalize entry.1 ≠ k) (front : List (Text × Severity)) :
    (ofAliases (front ++ back)).aliases.lookup k = (ofAliases front).aliases.lookup k := by
  induction back using List.reverseRecOn with
  | nil => rw [List.append_nil]
  | append_singleton back last ih =>
      obtain ⟨hback, hlast⟩ := List.forall_mem_append.mp h
      rw [← List.append_assoc, lookup_aliases_concat,
        if_neg (hlast last (List.mem_singleton_self last)).symm, ih hback]

theorem Means.resolve (h : Means aliases token s) :
    (ofAliases aliases).resolve (some token) = s := by
  rw [SeverityTable.resolve]
  cases h with
  | @aliased front back word s hsplit hword hlast =>
      rw [hsplit, List.append_cons, lookup_aliases_of_forall_ne hlast, lookup_aliases_concat,
        if_pos hword.symm, Option.getD_some]
  | known hnone =>
      have hlookup := lookup_aliases_of_forall_ne hnone []
      rw [List.nil_append] at hlookup
      rw [hlookup]
      rfl

/-- **A table resolves a word to what it means.** -/
theorem resolve_eq_iff : (ofAliases aliases).resolve (some token) = s ↔ Means aliases token s := by
  constructor
  · rintro rfl
    obtain ⟨s, hs⟩ := exists_means aliases token
    rwa [hs.resolve]
  · exact Means.resolve

/-- A word may be spelled in any ASCII case and between any blanks. -/
theorem resolve_of_variant (h : Text.Variant token token') (table : SeverityTable) :
    table.resolve (some token') = table.resolve (some token) := by
  rw [resolve, resolve, Severity.ofToken, Severity.ofToken, Text.normalize_of_variant h]

/-! ### No severity -/

theorem ofToken_ne_none (token : Text) : Severity.ofToken token ≠ .none := by
  have hknown : ∀ entry ∈ Severity.knownTokens, entry.2 ≠ .none := by decide
  rw [Severity.ofToken]
  cases hlookup : Severity.knownTokens.lookup (Text.normalize token) with
  | none => exact Severity.noConfusion
  | some s =>
      obtain ⟨_, _, hsplit, -⟩ := List.lookup_eq_some_iff.mp hlookup
      exact hknown (_, s) (by rw [hsplit]; exact List.mem_append_right _ List.mem_cons_self)

theorem Means.ne_none (haliases : ∀ entry ∈ aliases, entry.2 ≠ .none) (h : Means aliases token s) :
    s ≠ .none := by
  cases h with
  | @aliased front back word s hsplit _ _ =>
      exact haliases (word, s) (by rw [hsplit]; exact List.mem_append_right _ List.mem_cons_self)
  | known => exact ofToken_ne_none token

end SeverityTable

/-! ### Findings -/

namespace ReportReader

variable {r : ReportReader} {aliases : List (Text × Severity)} {report artifact : Text} {f : Finding}

/-- Where a finding has its severity from: what the word of its line means, and a warning where a
line has no word for it or the report is kept whole. -/
inductive Told (r : ReportReader) (aliases : List (Text × Severity)) (report artifact : Text)
    (f : Finding) : Prop
  | whole (hf : f = opaqueFinding artifact (Text.trim report)) (hwarning : f.severity = .warning)
  | unnamed {line : Text} {m : LineMatch} (hline : line ∈ shownLines report)
      (hm : r.matchLine? line = some m) (hf : f = findingOf r.severities m)
      (hnone : m.severity = none) (hwarning : f.severity = .warning)
  | named {line token : Text} {m : LineMatch} (hline : line ∈ shownLines report)
      (hm : r.matchLine? line = some m) (hf : f = findingOf r.severities m)
      (htoken : m.severity = some token)
      (hmeans : SeverityTable.Means aliases token f.severity)

theorem severity_findingOf (severities : SeverityTable) (m : LineMatch) :
    (findingOf severities m).severity = severities.resolve m.severity := rfl

/-- **Every finding of a report has its severity from there.** -/
theorem told_of_mem_read (hr : r.severities = .ofAliases aliases)
    (h : f ∈ r.read report artifact) : r.Told aliases report artifact f := by
  rw [read_eq] at h
  split at h
  · obtain rfl := List.mem_singleton.mp h
    exact .whole rfl rfl
  · obtain ⟨line, hline, hf⟩ := List.mem_filterMap.mp h
    obtain ⟨m, hm, rfl⟩ := Option.map_eq_some_iff.mp hf
    have hseverity := severity_findingOf r.severities m
    cases htoken : m.severity with
    | none =>
        rw [htoken] at hseverity
        exact .unnamed hline hm rfl htoken hseverity
    | some token =>
        rw [htoken, hr] at hseverity
        exact .named hline hm rfl htoken (hr ▸ SeverityTable.resolve_eq_iff.mp hseverity.symm)

theorem Told.severity_ne_none (haliases : ∀ entry ∈ aliases, entry.2 ≠ .none)
    (h : r.Told aliases report artifact f) : f.severity ≠ .none := by
  cases h with
  | whole _ hwarning => simp [hwarning]
  | unnamed _ _ _ _ hwarning => simp [hwarning]
  | named _ _ _ _ hmeans => exact hmeans.ne_none haliases

end ReportReader

/-! ### Documents -/

theorem Sarif.level_ne_none {run : Run} (h : ∀ f ∈ run.findings, f.severity ≠ .none)
    (informationUri : Option Text) : ∀ r ∈ (Document.ofRun run informationUri).runs,
      ∀ result ∈ r.results, result.level ≠ .none := by
  intro r hr result hresult
  obtain rfl := List.mem_singleton.mp hr
  obtain ⟨f, hf, rfl⟩ := List.mem_map.mp hresult
  have hne := h f hf
  rw [resultOf]
  cases hs : f.severity with
  | none => exact absurd hs hne
  | _ => exact Level.noConfusion

namespace Converter

variable {engine : RegexEngine} {config : Config} {c : Converter}

theorem severities_of_ofConfig (h : ofConfig config engine = .ok c) :
    c.reader.severities = .ofAliases config.aliases.entries := by
  obtain ⟨r, hr, hc⟩ := Except.bind_eq_ok.mp h
  obtain ⟨_, _, -, -, -, rfl⟩ := Config.reader?_eq_ok_iff.mp (Except.mapError_eq_ok.mp hr)
  cases hc
  rfl

/-- **Severities follow the aliases, and only an alias makes a finding have none**, whatever engine
compiles the patterns. -/
theorem severities_exact (h : ofConfig config engine = .ok c) :
    (∀ aliases token s, (SeverityTable.ofAliases aliases).resolve (some token) = s ↔
      SeverityTable.Means aliases token s) ∧
    (∀ aliases token token', Text.Variant token token' →
      (SeverityTable.ofAliases aliases).resolve (some token') =
        (SeverityTable.ofAliases aliases).resolve (some token)) ∧
    (∀ report artifact, ∀ f ∈ c.reader.read report artifact,
      c.reader.Told config.aliases.entries report artifact f) ∧
    ((∀ entry ∈ config.aliases.entries, entry.2 ≠ .none) →
      ∀ label mnemonic report run, c.readRun label mnemonic report = .ok run →
        (∀ f ∈ run.findings, f.severity ≠ .none) ∧
        ∃ text d, c.convert label mnemonic report = .ok text ∧
          Sarif.Document.read? text = some d ∧
          ∀ r ∈ d.runs, ∀ result ∈ r.results, result.level ≠ .none) := by
  refine ⟨fun aliases token s => SeverityTable.resolve_eq_iff,
    fun aliases token token' hvariant => SeverityTable.resolve_of_variant hvariant _, ?_, ?_⟩
  · intro report artifact f hf
    exact ReportReader.told_of_mem_read (severities_of_ofConfig h) hf
  · intro haliases label mnemonic report run hrun
    have hfindings : ∀ f ∈ run.findings, f.severity ≠ .none := by
      rw [eq_of_readRun hrun]
      intro f hf
      exact (ReportReader.told_of_mem_read (severities_of_ofConfig h) hf).severity_ne_none haliases
    exact ⟨hfindings, _, _, convert_of_readRun hrun, Sarif.Document.read?_write _ _,
      Sarif.level_ne_none hfindings _⟩

/-- Two aliases for one word, of which the last counts, and none for another. -/
theorem severities_exact_style :
    let aliases := [("Style".toList, Severity.error), ("style".toList, .note)]
    let config := { Config.standard with aliases := .ofPairs aliases }
    ∃ c, ofConfig config = .ok c ∧
      (SeverityTable.ofAliases aliases).resolve (some " STYLE".toList) = .note ∧
      ∀ report run, c.readRun "//a:b".toList "lint".toList report = .ok run →
        ∀ f ∈ run.findings, f.severity ≠ .none := by
  intro aliases config
  obtain ⟨c, hc⟩ : ∃ c, ofConfig config = .ok c := ⟨_, rfl⟩
  obtain ⟨hmeans, hvariant, -, hnone⟩ := severities_exact hc
  have hstyle : Text.Variant "style".toList ([' '] ++ ("STYLE".toList ++ [])) :=
    .spelled (List.forall_mem_singleton.mpr rfl) rfl (List.forall_mem_nil _)
  have hsplit : aliases = [("Style".toList, .error)] ++ ("style".toList, .note) :: [] := rfl
  refine ⟨c, hc, ?_, ?_⟩
  · calc (SeverityTable.ofAliases aliases).resolve (some " STYLE".toList)
        = (SeverityTable.ofAliases aliases).resolve (some "style".toList) := hvariant _ _ _ hstyle
      _ = .note := (hmeans _ _ _).mpr (.aliased hsplit rfl (List.forall_mem_nil _))
  · intro report run hrun
    exact (hnone (by decide) _ _ _ _ hrun).1

end Converter

end LintFindings
