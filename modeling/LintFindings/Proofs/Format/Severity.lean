/-
Which words are taken for severities.

The format of compilers compares words by their case folding, and the severities compare
them in small ASCII letters.  Two characters outside ASCII fold to letters that the known
words could have (`of_foldCase_ascii`).  No known word has a k, so the Kelvin sign never
stands in one; only `suggestion` has an s, and with a long s in its place the format takes
the word for a severity that the severities do not know.  Every other word that the format
takes is known (`known_iff_of_matchLine?`).
-/
import LintFindings.Proofs.Format.Parts

namespace LintFindings

variable {t word : Text}

/-! ### Known words -/

namespace Severity

/-- A word that is among the known ones, in any ASCII case and between any blanks. -/
def Known (word : Text) : Prop := Text.normalize word ∈ knownTokens.map Prod.fst

instance (word : Text) : Decidable (Known word) :=
  inferInstanceAs (Decidable (Text.normalize word ∈ knownTokens.map Prod.fst))

theorem ofToken_of_not_known (h : ¬ Known word) : ofToken word = warning := by
  have hlookup : knownTokens.lookup (Text.normalize word) = Option.none := by
    rw [List.lookup_eq_none_iff]
    intro pair hpair
    rw [bne_iff_ne]
    intro heq
    exact h (List.mem_map.mpr ⟨pair, hpair, heq.symm⟩)
  rw [ofToken, hlookup, Option.getD_none]

end Severity

namespace Gnu

/-! ### Words that fold to known ones -/

section

variable (hword : word.map Unicode.foldCase ∈ Severity.knownTokens.map Prod.fst)

include hword

/-- What folds to a character of a known word is an ASCII character or a long s. -/
theorem ascii_or_longS {c : Char} (hc : c ∈ word) : c.toNat < 0x80 ∨ c = 'ſ' := by
  have htokens : (Severity.knownTokens.map Prod.fst).all
      (·.all fun d => d.toNat < 0x80 && d != 'k') = true := by decide
  have hchars := List.all_eq_true.mp (List.all_eq_true.mp htokens _ hword) _
    (List.mem_map_of_mem hc)
  rw [Bool.and_eq_true, decide_eq_true_eq, bne_iff_ne] at hchars
  obtain hascii | hlong | hkelvin := Unicode.of_foldCase_ascii hchars.1
  · exact Or.inl hascii
  · exact Or.inr hlong
  · have hfold : Unicode.foldCase '\u212a' = 'k' := by decide +kernel
    rw [hkelvin] at hchars
    exact absurd hfold hchars.2

/-- Without a long s, folding a word does no more than making it small. -/
theorem map_toLower_of_notMem (hlong : 'ſ' ∉ word) :
    word.map Char.toLower ∈ Severity.knownTokens.map Prod.fst := by
  have heq : word.map Unicode.foldCase = word.map Char.toLower := by
    refine List.map_congr_left fun c hc => Unicode.foldCase_of_ascii ?_
    refine (ascii_or_longS hword hc).resolve_right ?_
    rintro rfl
    exact hlong hc
  rw [← heq]
  exact hword

/-- One known word has an s. -/
theorem map_foldCase_of_mem (hlong : 'ſ' ∈ word) :
    word.map Unicode.foldCase = "suggestion".toList := by
  have htokens : ∀ token ∈ Severity.knownTokens.map Prod.fst, 's' ∈ token →
      token = "suggestion".toList := by decide
  have hfold : Unicode.foldCase 'ſ' = 's' := by decide +kernel
  exact htokens _ hword (hfold ▸ List.mem_map_of_mem hlong)

end

/-- A long s is no ASCII capital, and no known word has one. -/
theorem map_toLower_of_mem (hlong : 'ſ' ∈ word) :
    word.map Char.toLower ∉ Severity.knownTokens.map Prod.fst := by
  intro hmem
  have htokens : ∀ token ∈ Severity.knownTokens.map Prod.fst, 'ſ' ∉ token := by decide
  exact htokens _ hmem (List.mem_map_of_mem hlong)

/-! ### The severities of lines -/

/-- **A severity that is taken from a line is a known word, unless it has a long s.**  With one, it
is a variant of one word, and then it has the meaning of a word that is not known. -/
theorem known_iff_of_matchLine? {m : LineMatch} (h : matcher.matchLine? t = some m)
    (hseverity : m.severity = some word) :
    (Severity.Known word ↔ 'ſ' ∉ word) ∧
    ('ſ' ∈ word → word.map Unicode.foldCase = "suggestion".toList ∧
      SeverityTable.plain.resolve (some word) = .warning) := by
  obtain ⟨p, hpieces, hmatch⟩ := Option.bind_eq_some_iff.mp h
  obtain ⟨gap, part, code, rule, -, hpart, -⟩ := (pieced_of_pieces? hpieces).eq
  have hword : p.severity = some word := by
    rw [← hseverity, (Located.lineMatch?_eq_some_iff.mp hmatch).severity, hpart.bind_trimmed?]
  rw [hword] at hpart
  cases hpart with
  | written hknown hchars =>
      have hnormal : Text.normalize word = word.map Char.toLower := by
        rw [Text.normalize, Text.trim_of_bare (Text.bare_of_forall fun c hc => (hchars c hc).2)]
      have hiff : Severity.Known word ↔ 'ſ' ∉ word := by
        rw [Severity.Known, hnormal]
        exact ⟨fun hmem hlong => map_toLower_of_mem hlong hmem, map_toLower_of_notMem hknown⟩
      refine ⟨hiff, fun hlong => ⟨map_foldCase_of_mem hknown hlong, ?_⟩⟩
      exact Severity.ofToken_of_not_known fun hmem => hiff.mp hmem hlong

/-- A line with a known word in capitals. -/
theorem known_capitals : matcher.matchLine? "a.c:1: HINT : m".toList = some
      { file := "a.c".toList, line := some 1, column := none, endLine := none, endColumn := none
        severity := some "HINT".toList, rule := none, helpUri := none, message := "m".toList } ∧
    Severity.Known "HINT".toList := by
  have hmatch : matcher.matchLine? "a.c:1: HINT : m".toList = some
      { file := "a.c".toList, line := some 1, column := none, endLine := none, endColumn := none
        severity := some "HINT".toList, rule := none, helpUri := none, message := "m".toList } := by
    decide +kernel
  obtain ⟨hiff, -⟩ := known_iff_of_matchLine? hmatch rfl
  exact ⟨hmatch, hiff.mpr (by decide)⟩

/-- A word with a long s is taken from a line, and its severity is that of no known word. -/
theorem unknown_longS : matcher.matchLine? "a.c:1: ſuggestion: m".toList = some
      { file := "a.c".toList, line := some 1, column := none, endLine := none, endColumn := none
        severity := some "ſuggestion".toList, rule := none, helpUri := none
        message := "m".toList } ∧
    ¬ Severity.Known "ſuggestion".toList ∧
    SeverityTable.plain.resolve (some "ſuggestion".toList) = .warning ∧
    SeverityTable.plain.resolve (some "suggestion".toList) = .note := by
  decide +kernel

end Gnu

end LintFindings
