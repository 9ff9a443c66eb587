/-
Which configurations can be used, and what of the others is reported.

Nothing is assumed of the engine that compiles the patterns.  A pattern is `Usable` if the engine
compiles its expression and finds groups for the file and the message in it, and a format if its
name is one of the known spellings.  `Fault` is what is wrong with a pattern, and `FirstFault` is
the first mistake of a configuration: its patterns come before its formats, and only one without
mistakes is asked whether it leaves anything to do.

The reader of a configuration is made entry by entry (`reader?_eq_ok_iff`), so its matchers have
the names of the patterns and then those of the formats, and a format that is named by another
of its spellings has the same matcher.
-/
import LintFindings.Config
import LintFindings.Proofs.Except
import LintFindings.Proofs.Text.Normal
import LintFindings.Proofs.TextMap

namespace LintFindings

/-! ### Patterns -/

namespace PatternSpec

variable {engine : RegexEngine} {p : PatternSpec} {r : CompiledRegex} {e : PatternError}

/-- A pattern whose expression is compiled and has the groups that are needed. -/
def Usable (engine : RegexEngine) (p : PatternSpec) : Prop :=
  ∃ r, engine.compile? p.regex = .ok r ∧ "file".toList ∈ r.groupNames ∧
    "message".toList ∈ r.groupNames

/-- What is wrong with a pattern; of two groups that it lacks, the one for the file counts. -/
inductive Fault (engine : RegexEngine) (p : PatternSpec) : PatternError → Prop
  | malformed (h : engine.compile? p.regex = .error .malformed) :
      Fault engine p (.malformed p.name)
  | tooLarge (h : engine.compile? p.regex = .error .tooLarge) : Fault engine p (.tooLarge p.name)
  | noFile {r : CompiledRegex} (hr : engine.compile? p.regex = .ok r)
      (hfile : "file".toList ∉ r.groupNames) : Fault engine p (.missingGroup p.name "file".toList)
  | noMessage {r : CompiledRegex} (hr : engine.compile? p.regex = .ok r)
      (hfile : "file".toList ∈ r.groupNames) (hmessage : "message".toList ∉ r.groupNames) :
      Fault engine p (.missingGroup p.name "message".toList)

theorem usable_or_fault (engine : RegexEngine) (p : PatternSpec) :
    p.Usable engine ∨ ∃ e, p.Fault engine e := by
  cases hr : engine.compile? p.regex with
  | error e =>
      cases e with
      | malformed => exact .inr ⟨_, .malformed hr⟩
      | tooLarge => exact .inr ⟨_, .tooLarge hr⟩
  | ok r =>
      by_cases hfile : "file".toList ∈ r.groupNames
      · by_cases hmessage : "message".toList ∈ r.groupNames
        · exact .inl ⟨r, hr, hfile, hmessage⟩
        · exact .inr ⟨_, .noMessage hr hfile hmessage⟩
      · exact .inr ⟨_, .noFile hr hfile⟩

theorem find?_requiredGroups (names : List Text) :
    (Pattern.requiredGroups.find? fun g => !names.contains g) =
      if "file".toList ∉ names then some "file".toList
      else if "message".toList ∉ names then some "message".toList else none := by
  by_cases hfile : "file".toList ∈ names <;> by_cases hmessage : "message".toList ∈ names <;>
    simp_all [Pattern.requiredGroups]

theorem compile_of_usable (hr : engine.compile? p.regex = .ok r)
    (hfile : "file".toList ∈ r.groupNames) (hmessage : "message".toList ∈ r.groupNames) :
    Pattern.compile p.name p.regex engine = .ok r := by
  rw [Pattern.compile, hr]
  dsimp only
  rw [find?_requiredGroups, if_neg (not_not_intro hfile), if_neg (not_not_intro hmessage)]

theorem compile_of_fault (h : p.Fault engine e) :
    Pattern.compile p.name p.regex engine = .error e := by
  cases h with
  | malformed h => simp only [Pattern.compile, h, RegexError.inPattern]
  | tooLarge h => simp only [Pattern.compile, h, RegexError.inPattern]
  | noFile hr hfile =>
      rw [Pattern.compile, hr]
      dsimp only
      rw [find?_requiredGroups, if_pos hfile]
  | noMessage hr hfile hmessage =>
      rw [Pattern.compile, hr]
      dsimp only
      rw [find?_requiredGroups, if_neg (not_not_intro hfile), if_pos hmessage]

/-- **A pattern that cannot be used is reported for its fault.** -/
theorem compile_eq_error_iff :
    Pattern.compile p.name p.regex engine = .error e ↔ p.Fault engine e := by
  constructor
  · intro h
    obtain ⟨r, hr, hfile, hmessage⟩ | ⟨e', hfault⟩ := p.usable_or_fault engine
    · rw [compile_of_usable hr hfile hmessage] at h
      cases h
    · rw [compile_of_fault hfault] at h
      cases h
      exact hfault
  · exact compile_of_fault

theorem compile_eq_ok_iff : Pattern.compile p.name p.regex engine = .ok r ↔
    engine.compile? p.regex = .ok r ∧ "file".toList ∈ r.groupNames ∧
      "message".toList ∈ r.groupNames := by
  constructor
  · intro h
    obtain ⟨r', hr, hfile, hmessage⟩ | ⟨e, hfault⟩ := p.usable_or_fault engine
    · rw [compile_of_usable hr hfile hmessage] at h
      cases h
      exact ⟨hr, hfile, hmessage⟩
    · rw [compile_of_fault hfault] at h
      cases h
  · rintro ⟨hr, hfile, hmessage⟩
    exact compile_of_usable hr hfile hmessage

instance (engine : RegexEngine) (p : PatternSpec) : Decidable (p.Usable engine) :=
  decidable_of_iff ((Pattern.compile p.name p.regex engine).toOption.isSome = true) <| by
    obtain h | ⟨e, he⟩ := p.usable_or_fault engine
    · obtain ⟨r, hr, hfile, hmessage⟩ := h
      rw [compile_of_usable hr hfile hmessage]
      exact iff_of_true rfl ⟨r, hr, hfile, hmessage⟩
    · rw [compile_of_fault he]
      refine iff_of_false nofun fun ⟨r, hr, hfile, hmessage⟩ => ?_
      have h := compile_of_usable hr hfile hmessage
      rw [compile_of_fault he] at h
      cases h

/-- A matcher of a pattern has its name and finds matches of its expression. -/
def MatchedBy (engine : RegexEngine) (p : PatternSpec) (m : Matcher) : Prop :=
  ∃ r, engine.compile? p.regex = .ok r ∧ "file".toList ∈ r.groupNames ∧
    "message".toList ∈ r.groupNames ∧ m = Pattern.matcher p.name r

theorem patternMatcher?_eq_ok_iff {m : Matcher} :
    Config.patternMatcher? engine p = .ok m ↔ p.MatchedBy engine m := by
  rw [Config.patternMatcher?, Except.mapError_eq_ok, Pattern.matcher?, Except.map_eq_ok]
  simp only [compile_eq_ok_iff, MatchedBy]
  constructor
  · rintro ⟨r, ⟨hr, hfile, hmessage⟩, rfl⟩
    exact ⟨r, hr, hfile, hmessage, rfl⟩
  · rintro ⟨r, hr, hfile, hmessage, rfl⟩
    exact ⟨r, ⟨hr, hfile, hmessage⟩, rfl⟩

theorem patternMatcher?_eq_error_iff {e : ConfigError} :
    Config.patternMatcher? engine p = .error e ↔ ∃ d, p.Fault engine d ∧ .pattern d = e := by
  rw [Config.patternMatcher?, Except.mapError_eq_error]
  simp only [Pattern.matcher?, Except.map_eq_error, compile_eq_error_iff]

theorem exists_patternMatcher?_iff (p : PatternSpec) :
    (∃ m, Config.patternMatcher? engine p = .ok m) ↔ p.Usable engine := by
  simp only [patternMatcher?_eq_ok_iff]
  constructor
  · rintro ⟨m, r, hr, hfile, hmessage, -⟩
    exact ⟨r, hr, hfile, hmessage⟩
  · rintro ⟨r, hr, hfile, hmessage⟩
    exact ⟨_, r, hr, hfile, hmessage, rfl⟩

end PatternSpec

/-! ### Formats -/

namespace Format

variable {f : Format} {name name' : Text}

/-- A format is spelled by any of its names, in any ASCII case and between any blanks. -/
def Spelled (f : Format) (name : Text) : Prop := (Text.normalize name, f) ∈ spellings

instance (f : Format) (name : Text) : Decidable (f.Spelled name) :=
  inferInstanceAs (Decidable ((Text.normalize name, f) ∈ spellings))

theorem ofName?_eq_some_iff : ofName? name = some f ↔ f.Spelled name :=
  TextMap.lookup_eq_some_iff (by decide)

theorem spelled_of_mem (h : (name, f) ∈ spellings) (hname : Text.Variant name name') :
    f.Spelled name' := by
  have hnormal : ∀ s ∈ spellings, Text.normalize s.1 = s.1 := by decide
  rwa [Spelled, Text.normalize_of_variant hname, hnormal _ h]

theorem formatMatcher?_of_spelled (h : f.Spelled name) :
    Config.formatMatcher? name = .ok f.matcher := by
  rw [Config.formatMatcher?, ofName?_eq_some_iff.mpr h]

theorem formatMatcher?_eq_ok_iff {m : Matcher} :
    Config.formatMatcher? name = .ok m ↔ ∃ f : Format, f.Spelled name ∧ f.matcher = m := by
  simp only [← ofName?_eq_some_iff]
  rw [Config.formatMatcher?]
  cases ofName? name with
  | none => simp
  | some f => simp

theorem formatMatcher?_eq_error_iff {e : ConfigError} :
    Config.formatMatcher? name = .error e ↔
      (∀ f : Format, ¬ f.Spelled name) ∧ .unknownFormat name = e := by
  simp only [← ofName?_eq_some_iff]
  rw [Config.formatMatcher?]
  cases ofName? name with
  | none => simp
  | some f => simp

theorem exists_formatMatcher?_iff :
    (∃ m, Config.formatMatcher? name = .ok m) ↔ ∃ f : Format, f.Spelled name := by
  simp only [formatMatcher?_eq_ok_iff]
  constructor
  · rintro ⟨m, f, hf, -⟩
    exact ⟨f, hf⟩
  · rintro ⟨f, hf⟩
    exact ⟨_, f, hf, rfl⟩

end Format

/-! ### Configurations -/

namespace Config

variable {engine : RegexEngine} {c : Config} {r : ReportReader} {e : ConfigError}

/-- Where nothing is left to do: no line can be recognized, and nothing is kept whole. -/
def Idle (c : Config) : Prop := c.patterns = [] ∧ c.formats = [] ∧ c.fallback = false

/-- The first mistake of a configuration: of a pattern after usable ones, or of a format after
known ones where all patterns are usable, or that there is nothing to do. -/
inductive FirstFault (engine : RegexEngine) (c : Config) : ConfigError → Prop
  | pattern {front back : List PatternSpec} {p : PatternSpec} {e : PatternError}
      (hsplit : c.patterns = front ++ p :: back) (hfront : ∀ q ∈ front, q.Usable engine)
      (hp : p.Fault engine e) : FirstFault engine c (.pattern e)
  | format {front back : List Text} {name : Text}
      (hpatterns : ∀ p ∈ c.patterns, p.Usable engine) (hsplit : c.formats = front ++ name :: back)
      (hfront : ∀ n ∈ front, ∃ f : Format, f.Spelled n) (hname : ∀ f : Format, ¬ f.Spelled name) :
      FirstFault engine c (.unknownFormat name)
  | nothing (h : c.Idle) : FirstFault engine c .nothingToRead

theorem exists_patterns_iff :
    (∃ ms, c.patterns.mapM (patternMatcher? engine) = .ok ms) ↔ ∀ p ∈ c.patterns, p.Usable engine := by
  simp only [Except.exists_mapM_iff, PatternSpec.exists_patternMatcher?_iff]

theorem exists_formats_iff : (∃ ms, c.formats.mapM formatMatcher? = .ok ms) ↔
    ∀ name ∈ c.formats, ∃ f : Format, f.Spelled name := by
  simp only [Except.exists_mapM_iff, Format.exists_formatMatcher?_iff]

theorem idle_iff {patterns formats : List Matcher}
    (hpatterns : c.patterns.mapM (patternMatcher? engine) = .ok patterns)
    (hformats : c.formats.mapM formatMatcher? = .ok formats) :
    ((patterns ++ formats).isEmpty && !c.fallback) = true ↔ c.Idle := by
  have hp := (Except.mapM_eq_ok.mp hpatterns).length_eq
  have hf := (Except.mapM_eq_ok.mp hformats).length_eq
  simp only [Idle, ← List.length_eq_zero_iff, hp, hf, Bool.and_eq_true, List.isEmpty_iff,
    List.length_append, Bool.not_eq_true', Nat.add_eq_zero_iff, and_assoc]

theorem reader?_eq {patterns formats : List Matcher}
    (hpatterns : c.patterns.mapM (patternMatcher? engine) = .ok patterns)
    (hformats : c.formats.mapM formatMatcher? = .ok formats) :
    c.reader? engine =
      if (patterns ++ formats).isEmpty && !c.fallback then .error .nothingToRead
      else .ok ⟨patterns ++ formats, .ofAliases c.aliases.entries, c.fallback⟩ := by
  rw [reader?, hpatterns, hformats]
  rfl

/-- **The reader of a configuration is made entry by entry.** -/
theorem reader?_eq_ok_iff : c.reader? engine = .ok r ↔
    ∃ patterns formats, c.patterns.mapM (patternMatcher? engine) = .ok patterns ∧
      c.formats.mapM formatMatcher? = .ok formats ∧ ¬ c.Idle ∧
      r = ⟨patterns ++ formats, .ofAliases c.aliases.entries, c.fallback⟩ := by
  constructor
  · intro h
    obtain ⟨patterns, hpatterns, h'⟩ := Except.bind_eq_ok.mp h
    obtain ⟨formats, hformats, -⟩ := Except.bind_eq_ok.mp h'
    refine ⟨patterns, formats, hpatterns, hformats, ?_⟩
    rw [reader?_eq hpatterns hformats] at h
    split at h
    · cases h
    next hidle =>
      rw [idle_iff hpatterns hformats] at hidle
      cases h
      exact ⟨hidle, rfl⟩
  · rintro ⟨patterns, formats, hpatterns, hformats, hidle, rfl⟩
    rw [reader?_eq hpatterns hformats, if_neg (mt (idle_iff hpatterns hformats).mp hidle)]

/-- **A configuration that cannot be used is reported for its first mistake.** -/
theorem reader?_eq_error_iff : c.reader? engine = .error e ↔ c.FirstFault engine e := by
  constructor
  · intro h
    obtain hpattern | ⟨patterns, hpatterns, h'⟩ := Except.bind_eq_error.mp h
    · obtain ⟨front, p, back, hsplit, hfront, hp⟩ := Except.mapM_eq_error.mp hpattern
      obtain ⟨d, hd, rfl⟩ := PatternSpec.patternMatcher?_eq_error_iff.mp hp
      exact .pattern hsplit (fun q hq => q.exists_patternMatcher?_iff.mp (hfront q hq)) hd
    have husable := exists_patterns_iff.mp ⟨patterns, hpatterns⟩
    obtain hformat | ⟨formats, hformats, -⟩ := Except.bind_eq_error.mp h'
    · obtain ⟨front, name, back, hsplit, hfront, hname⟩ := Except.mapM_eq_error.mp hformat
      obtain ⟨hunknown, rfl⟩ := Format.formatMatcher?_eq_error_iff.mp hname
      exact .format husable hsplit
        (fun n hn => Format.exists_formatMatcher?_iff.mp (hfront n hn)) hunknown
    · rw [reader?_eq hpatterns hformats] at h
      split at h
      next hidle =>
        cases h
        exact .nothing ((idle_iff hpatterns hformats).mp hidle)
      · cases h
  · intro h
    cases h with
    | pattern hsplit hfront hp =>
        refine Except.bind_eq_error.mpr (.inl (Except.mapM_eq_error.mpr ?_))
        exact ⟨_, _, _, hsplit, fun q hq => q.exists_patternMatcher?_iff.mpr (hfront q hq),
          PatternSpec.patternMatcher?_eq_error_iff.mpr ⟨_, hp, rfl⟩⟩
    | format hpatterns hsplit hfront hname =>
        obtain ⟨patterns, hpatterns⟩ := exists_patterns_iff.mpr hpatterns
        refine Except.bind_eq_error.mpr (.inr ⟨patterns, hpatterns, ?_⟩)
        refine Except.bind_eq_error.mpr (.inl (Except.mapM_eq_error.mpr ?_))
        exact ⟨_, _, _, hsplit, fun n hn => Format.exists_formatMatcher?_iff.mpr (hfront n hn),
          Format.formatMatcher?_eq_error_iff.mpr ⟨hname, rfl⟩⟩
    | nothing hidle =>
        have hpatterns : c.patterns.mapM (patternMatcher? engine) = .ok [] := by
          rw [hidle.1]
          rfl
        have hformats : c.formats.mapM formatMatcher? = .ok [] := by
          rw [hidle.2.1]
          rfl
        rw [reader?_eq hpatterns hformats, if_pos ((idle_iff hpatterns hformats).mpr hidle)]

/-- **The configurations that can be used.** -/
theorem exists_reader?_iff : (∃ r, c.reader? engine = .ok r) ↔
    (∀ p ∈ c.patterns, p.Usable engine) ∧ (∀ name ∈ c.formats, ∃ f : Format, f.Spelled name) ∧
      ¬ c.Idle := by
  simp only [reader?_eq_ok_iff, ← exists_patterns_iff, ← exists_formats_iff]
  constructor
  · rintro ⟨r, patterns, formats, hpatterns, hformats, hidle, -⟩
    exact ⟨⟨patterns, hpatterns⟩, ⟨formats, hformats⟩, hidle⟩
  · rintro ⟨⟨patterns, hpatterns⟩, ⟨formats, hformats⟩, hidle⟩
    exact ⟨_, patterns, formats, hpatterns, hformats, hidle, rfl⟩

/-! ### Names of matchers, and of formats -/

theorem names_of_patterns {ps : List PatternSpec} {ms : List Matcher}
    (h : ps.mapM (patternMatcher? engine) = .ok ms) : ms.map Matcher.name = ps.map PatternSpec.name := by
  have hnames : List.Forall₂ (fun p m => m.name = p.name) ps ms := by
    refine (Except.mapM_eq_ok.mp h).imp fun p m hm => ?_
    obtain ⟨r, -, -, -, rfl⟩ := PatternSpec.patternMatcher?_eq_ok_iff.mp hm
    rfl
  rw [← List.forall₂_eq_eq_eq, List.forall₂_map_left_iff, List.forall₂_map_right_iff]
  exact hnames.flip

theorem exists_formats_of_spelled {names : List Text}
    (h : ∀ name ∈ names, ∃ f : Format, f.Spelled name) :
    ∃ fs, List.Forall₂ Format.Spelled fs names := by
  induction names with
  | nil => exact ⟨[], .nil⟩
  | cons name names ih =>
      obtain ⟨⟨f, hf⟩, hrest⟩ := List.forall_mem_cons.mp h
      obtain ⟨fs, hfs⟩ := ih hrest
      exact ⟨f :: fs, .cons hf hfs⟩

theorem matchers_of_spelled {fs : List Format} {names : List Text}
    (h : List.Forall₂ Format.Spelled fs names) :
    names.mapM formatMatcher? = .ok (fs.map Format.matcher) := by
  rw [Except.mapM_eq_ok, List.forall₂_map_right_iff]
  exact h.flip.imp fun _ _ => Format.formatMatcher?_of_spelled

/-- **The matchers of a configuration**: those of its patterns, and then those of its formats,
however these are spelled. -/
theorem reader?_of_spelled {fs : List Format} (hr : c.reader? engine = .ok r)
    (h : List.Forall₂ Format.Spelled fs c.formats) :
    r.matchers.map Matcher.name = c.patterns.map PatternSpec.name ++ fs.map Format.name ∧
      ∀ formats, List.Forall₂ Format.Spelled fs formats →
        { c with formats }.reader? engine = .ok r := by
  have hfs := matchers_of_spelled h
  constructor
  · obtain ⟨patterns, formats, hpatterns, hformats, -, rfl⟩ := reader?_eq_ok_iff.mp hr
    rw [hfs] at hformats
    cases hformats
    have hnames : (fs.map Format.matcher).map Matcher.name = fs.map Format.name := by
      rw [List.map_map]
      rfl
    rw [List.map_append, names_of_patterns hpatterns, hnames]
  · intro formats hformats
    rw [reader?, hfs] at hr
    rwa [reader?, matchers_of_spelled hformats]

/-- **The configurations that can be used, and the first mistake of the others**, whatever engine
compiles the patterns. -/
theorem reader?_exact (engine : RegexEngine) (c : Config) :
    ((∃ r, c.reader? engine = .ok r) ↔
      (∀ p ∈ c.patterns, p.Usable engine) ∧ (∀ name ∈ c.formats, ∃ f : Format, f.Spelled name) ∧
        ¬ c.Idle) ∧
    (∀ e, c.reader? engine = .error e ↔ c.FirstFault engine e) ∧
    (∀ r, c.reader? engine = .ok r →
      (∃ fs, List.Forall₂ Format.Spelled fs c.formats) ∧
      ∀ fs, List.Forall₂ Format.Spelled fs c.formats →
        r.matchers.map Matcher.name = c.patterns.map PatternSpec.name ++ fs.map Format.name ∧
        ∀ formats, List.Forall₂ Format.Spelled fs formats →
          ∃ r', { c with formats }.reader? engine = .ok r' ∧
            r'.matchers.map Matcher.name = r.matchers.map Matcher.name ∧
            ∀ report artifact, r'.read report artifact = r.read report artifact) ∧
    (∀ (f : Format) (known name : Text), (known, f) ∈ Format.spellings →
      Text.Variant known name → f.Spelled name) := by
  refine ⟨exists_reader?_iff, fun e => reader?_eq_error_iff, ?_,
    fun f known name => Format.spelled_of_mem⟩
  intro r hr
  obtain ⟨-, hspelled, -⟩ := exists_reader?_iff.mp ⟨r, hr⟩
  refine ⟨exists_formats_of_spelled hspelled, ?_⟩
  intro fs hfs
  obtain ⟨hnames, hrespelled⟩ := reader?_of_spelled hr hfs
  exact ⟨hnames, fun formats hformats =>
    ⟨r, hrespelled formats hformats, rfl, fun _ _ => rfl⟩⟩

/-- A pattern and two formats, in other spellings and then with an unknown one. -/
theorem reader?_exact_pair :
    let engine := RegexEngine.builtin
    let c : Config :=
      { Config.standard with
        patterns := [⟨"pair".toList, "(?P<file>a):(?P<message>b)".toList⟩]
        formats := [" ESLint".toList, "clippy".toList] }
    (∃ r, c.reader? engine = .ok r ∧
      r.matchers.map Matcher.name = ["pair".toList, "compact".toList, "rustc-json".toList] ∧
      ∃ r', { c with formats := ["Stylelint\t".toList, "rustc".toList] }.reader? engine = .ok r' ∧
        r'.matchers.map Matcher.name = r.matchers.map Matcher.name) ∧
    { c with formats := ["clippy".toList, "pylint".toList, "".toList] }.reader? engine =
      .error (.unknownFormat "pylint".toList) := by
  intro engine c
  obtain ⟨hok, -, hnames, -⟩ := reader?_exact engine c
  have husable : ∀ p ∈ c.patterns, p.Usable engine := by decide +kernel
  have hcompact : Format.compact.Spelled " ESLint".toList := by decide
  have hdiagnostic : Format.diagnostic.Spelled "clippy".toList := by decide
  constructor
  · have hspelled : ∀ name ∈ c.formats, ∃ f : Format, f.Spelled name :=
      List.forall_mem_cons.mpr ⟨⟨_, hcompact⟩, List.forall_mem_singleton.mpr ⟨_, hdiagnostic⟩⟩
    obtain ⟨r, hr⟩ := hok.mpr ⟨husable, hspelled, fun hidle => absurd hidle.1 (by decide)⟩
    obtain ⟨hmatchers, hrespelled⟩ :=
      (hnames r hr).2 [.compact, .diagnostic] (.cons hcompact (.cons hdiagnostic .nil))
    obtain ⟨r', hr', hmatchers', -⟩ := hrespelled ["Stylelint\t".toList, "rustc".toList]
      (.cons (by decide) (.cons (by decide) .nil))
    exact ⟨r, hr, hmatchers, r', hr', hmatchers'⟩
  · have hsplit : ["clippy".toList, "pylint".toList, "".toList] =
        ["clippy".toList] ++ "pylint".toList :: ["".toList] := rfl
    have hfault : FirstFault engine
        { c with formats := ["clippy".toList, "pylint".toList, "".toList] }
        (.unknownFormat "pylint".toList) :=
      .format husable hsplit (List.forall_mem_singleton.mpr ⟨_, hdiagnostic⟩)
        (fun f => by cases f <;> decide)
    exact ((reader?_exact engine _).2.1 _).mpr hfault

end Config
end LintFindings
