/-
What a finding keeps of the numbers and texts it is given.

A finding is placed in two steps, and the second relies on the first: `placedAt`
leaves a beginning that is sound whatever it is given (`begun_placedAt`), and
`through` puts an end to a sound beginning only where one fits (`placed_through`).
Naming a rule or a page touches neither, and what is named is not blank and has no
margins.
-/
import LintFindings.Finding
import LintFindings.Proofs.Text

namespace LintFindings.Finding

/-! ### Positions -/

/-- Where a finding begins: positions count from one, and a column stands on a line. -/
structure Begun (f : Finding) : Prop where
  line : ∀ line ∈ f.line, 1 ≤ line
  column : ∀ column ∈ f.column, 1 ≤ column ∧ f.line.isSome

/-- Where a finding begins and ends.  The end has a line that does not stand before the first,
and on one line the columns do not stand the other way around. -/
structure Placed (f : Finding) : Prop extends Begun f where
  endLine : ∀ last ∈ f.endLine, ∃ line, f.line = some line ∧ line ≤ last
  endColumn : ∀ column ∈ f.endColumn, 1 ≤ column ∧ f.endLine.isSome
  oneLine : f.endLine = f.line → ∀ first ∈ f.column, ∀ last ∈ f.endColumn, first ≤ last

theorem one_le_of_pos {n : UInt32} (h : 0 < n) : 1 ≤ n :=
  UInt32.le_iff_toNat_le.mpr (UInt32.lt_iff_toNat_lt.mp h)

/-- A finding about a whole file has no positions. -/
theorem placed_about (filePath : Text) (severity : Severity) (message : Text) :
    Placed (about filePath severity message) := by
  refine ⟨⟨?_, ?_⟩, ?_, ?_, ?_⟩ <;> simp [about]

/-- Whatever numbers it is given, a finding begins at a position or nowhere. -/
theorem begun_placedAt (f : Finding) (line column : Option UInt32) :
    Begun (f.placedAt line column) := by
  refine ⟨?_, ?_⟩
  · intro l hl
    obtain ⟨-, hpos⟩ := Option.filter_eq_some_iff.mp hl
    exact one_le_of_pos (of_decide_eq_true hpos)
  · intro c hc
    by_cases hline : (line.filter (0 < ·)).isSome
    · obtain ⟨-, hpos⟩ : column = some c ∧ 0 < c := by
        simpa [placedAt, hline, Option.filter_eq_some_iff] using hc
      exact ⟨one_le_of_pos hpos, hline⟩
    · simp [placedAt, hline] at hc

/-- What `through` asked of an end column that it kept. -/
theorem endColumn_through {f : Finding} {endLine endColumn : Option UInt32} {column : UInt32}
    (h : (f.through endLine endColumn).endColumn = some column) :
    ∃ last, (f.through endLine endColumn).endLine = some last ∧ 0 < column ∧
      (f.line = some last → ∀ first ∈ f.column, first ≤ column) := by
  obtain ⟨last, hlast, hkept⟩ := Option.bind_eq_some_iff.mp h
  obtain ⟨-, hfits⟩ := Option.filter_eq_some_iff.mp hkept
  rw [Bool.and_eq_true] at hfits
  refine ⟨last, hlast, of_decide_eq_true hfits.1, ?_⟩
  intro hline first hfirst
  rw [Option.mem_def] at hfirst
  simpa [endColumnFits, hline, hfirst] using hfits.2

/-- Only an end that fits is put to a beginning. -/
theorem placed_through {f : Finding} (h : Begun f) (endLine endColumn : Option UInt32) :
    Placed (f.through endLine endColumn) := by
  refine ⟨⟨h.line, h.column⟩, ?_, ?_, ?_⟩
  · intro last hlast
    obtain ⟨-, hfits⟩ := Option.filter_eq_some_iff.mp hlast
    obtain ⟨line, hline, hle⟩ := (Option.any_eq_true _ _).mp hfits
    exact ⟨line, hline, of_decide_eq_true hle⟩
  · intro column hcolumn
    obtain ⟨last, hlast, hpos, -⟩ := endColumn_through hcolumn
    exact ⟨one_le_of_pos hpos, by simp [hlast]⟩
  · intro hsame first hfirst column hcolumn
    obtain ⟨last, hlast, -, hfits⟩ := endColumn_through hcolumn
    exact hfits (hsame.symm.trans hlast) first hfirst

/-! ### Names -/

/-- What a finding names is not blank and has no margins. -/
def Named (name : Option Text) : Prop := ∀ t ∈ name, t ≠ [] ∧ Text.Bare t

theorem named_trimmed? (name : Option Text) : Named (name.bind Text.trimmed?) := by
  intro t ht
  obtain ⟨u, -, htrim⟩ := Option.bind_eq_some_iff.mp ht
  obtain ⟨rfl, hne⟩ := Text.trimmed?_eq_some_iff.mp htrim
  exact ⟨hne, Text.bare_trim u⟩

/-- A finding as it should be: it is about a file, it is placed, and it names no blanks. -/
structure Sound (f : Finding) : Prop extends Placed f where
  file : Text.trim f.filePath ≠ []
  rule : Named f.ruleId
  page : Named f.helpUri

theorem sound_about {filePath : Text} (h : Text.trim filePath ≠ []) (severity : Severity)
    (message : Text) : Sound (about filePath severity message) :=
  ⟨placed_about filePath severity message, h, by simp [about, Named], by simp [about, Named]⟩

/-- Rules and pages leave a finding where it is. -/
theorem sound_withHelpUri_withRule {f : Finding} (h : Placed f)
    (hfile : Text.trim f.filePath ≠ []) (rule uri : Option Text) :
    Sound ((f.withRule rule).withHelpUri uri) :=
  ⟨⟨⟨h.line, h.column⟩, h.endLine, h.endColumn, h.oneLine⟩, hfile, named_trimmed? rule,
    named_trimmed? uri⟩

end LintFindings.Finding
