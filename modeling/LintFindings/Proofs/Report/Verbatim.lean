/-
Which matchers repeat what stands on a line.

A matcher is `Verbatim` if the file, the message and the rule that it finds are made of characters
of the line.  Patterns are, and so are the formats that write their parts in a row.  A diagnostic
is not: the texts in it are written with escapes, and they may have any characters.  There is no
other matcher that a configuration can ask for (`verbatim_or_diagnostic`).
-/
import LintFindings.Proofs.Config.Reader
import LintFindings.Proofs.Format.Compact
import LintFindings.Proofs.Format.Parts
import LintFindings.Proofs.Pattern

namespace LintFindings

/-- The file, the message and the rule of a match have no characters but those of a text. -/
structure LineMatch.Within (m : LineMatch) (t : Text) : Prop where
  file : m.file ⊆ t
  message : m.message ⊆ t
  rule : ∀ rule ∈ m.rule, rule ⊆ t

/-- A matcher that repeats what stands on a line. -/
def Matcher.Verbatim (m : Matcher) : Prop := ∀ t found, m.matchLine? t = some found → found.Within t

/-! ### Formats -/

namespace Located

variable {p : Located} {m : LineMatch} {t : Text}

/-- Pieces that are made of characters of a text. -/
structure Within (p : Located) (t : Text) : Prop where
  file : p.file ⊆ t
  message : p.message ⊆ t
  rule : ∀ rule ∈ p.rule, rule ⊆ t
  code : ∀ code ∈ p.code, code ⊆ t

theorem Makes.within (h : p.Makes m) (hp : p.Within t) : m.Within t := by
  refine ⟨Text.subset_of_trimmed? h.file hp.file, Text.subset_of_trimmed? h.message hp.message, ?_⟩
  intro rule hrule
  rw [h.rule] at hrule
  rcases Option.or_eq_some_iff.mp hrule with hrule | ⟨-, hcode⟩
  · obtain ⟨written, hwritten, htrim⟩ := Option.bind_eq_some_iff.mp hrule
    exact Text.subset_of_trimmed? htrim (hp.rule written hwritten)
  · obtain ⟨written, hwritten, htrim⟩ := Option.bind_eq_some_iff.mp hcode
    exact Text.subset_of_trimmed? htrim (hp.code written hwritten)

/-- A format that cuts lines into pieces is verbatim if the pieces are. -/
theorem verbatim {pieces? : Text → Option Located} (name : Text)
    (h : ∀ t p, pieces? t = some p → p.Within t) :
    (Matcher.mk name fun t => pieces? t >>= lineMatch?).Verbatim := by
  intro t found hfound
  obtain ⟨p, hp, hfound⟩ := Option.bind_eq_some_iff.mp hfound
  exact (lineMatch?_eq_some_iff.mp hfound).within (h t p hp)

end Located

theorem Gnu.verbatim : Gnu.matcher.Verbatim := by
  refine Located.verbatim "gnu".toList ?_
  intro t p hp
  obtain ⟨gap, severity, code, rule, -, -, hcode, hrule, rfl⟩ := (pieced_of_pieces? hp).eq
  refine ⟨fun c hc => by simp [hc], fun c hc => by simp [hc], ?_, ?_⟩
  · intro found hfound c hc
    rw [hfound] at hrule
    cases hrule
    simp [hc]
  · intro found hfound c hc
    rw [hfound] at hcode
    cases hcode
    simp [hc]

theorem Compact.verbatim : Compact.matcher.Verbatim := by
  refine Located.verbatim "compact".toList ?_
  intro t q hq
  obtain ⟨p, message, rule, rfl, -, -, -, hmessage, rfl⟩ := exists_of_pieces? hq
  have hends := (message?_eq_some_iff.mp hmessage).1
  have htext : p.text ⊆ p.write := fun c hc => by simp [Parts.write, hc]
  have hfile : p.file ⊆ p.write := fun c hc => by simp [Parts.write, hc]
  refine ⟨hfile, List.Subset.trans hends.message_subset htext, ?_, ?_⟩
  · intro found hfound c hc
    refine htext ?_
    cases hfound
    cases hends with
    | ruled h =>
        rw [h.eq]
        simp [hc]
  · intro code hcode
    cases hcode

/-! ### Patterns and configurations -/

theorem Pattern.verbatim (name : Text) (r : CompiledRegex) : (Pattern.matcher name r).Verbatim := by
  intro t found hfound
  have hreads := reads_iff.mp hfound
  refine ⟨hreads.file.piece.isInfix.subset, hreads.message.piece.isInfix.subset, ?_⟩
  intro rule hrule
  refine (hreads.piece rule ?_).isInfix.subset
  exact List.mem_append_right _ (Option.mem_toList.mpr hrule)

namespace Config

/-- **Only a diagnostic says what does not stand on its line.** -/
theorem verbatim_or_diagnostic {engine : RegexEngine} {c : Config} {r : ReportReader}
    (h : c.reader? engine = .ok r) : ∀ m ∈ r.matchers, m.Verbatim ∨ m = Diagnostic.matcher := by
  obtain ⟨patterns, formats, hpatterns, hformats, -, rfl⟩ := reader?_eq_ok_iff.mp h
  intro m hm
  rcases List.mem_append.mp hm with hm | hm
  · obtain ⟨p, -, hp⟩ := Except.exists_of_mem_mapM hpatterns hm
    obtain ⟨r, -, -, -, rfl⟩ := PatternSpec.patternMatcher?_eq_ok_iff.mp hp
    exact .inl (Pattern.verbatim p.name r)
  · obtain ⟨name, -, hname⟩ := Except.exists_of_mem_mapM hformats hm
    obtain ⟨f, -, rfl⟩ := Format.formatMatcher?_eq_ok_iff.mp hname
    cases f with
    | gnu => exact .inl Gnu.verbatim
    | compact => exact .inl Compact.verbatim
    | diagnostic => exact .inr rfl

end Config

end LintFindings
