/-
What the closing line of a summary counts.

The last line of a summary has one of four forms.  `Closes` says when each of them is taken and
which counts it tells, each with the word behind it.  To read them off the line itself, `Labels`
looks for a number and the word that follows, and `Closes.labels_iff` says that it finds just
those counts.

Errors and warnings are counted by their severity.  What is called notes is all that is left
where there is neither an error nor a warning, so a finding without a severity is counted as a
note (`closing_counts`, `notes_unrated`).
-/
import LintFindings.Proofs.Summary.Styles
import LintFindings.Proofs.Text.Lines

namespace LintFindings

/-! ### Lines -/

namespace Text

variable {t line word : Text} {ws : List Text} {n : Nat}

/-- The last line of a text that ends with a line feed. -/
def LastLine (t last : Text) : Prop := ∃ front, t.splitOn '\n' = front ++ [last, []]

theorem splitOn_append_newline (s t : Text) :
    (s ++ '\n' :: t).splitOn '\n' = s.splitOn '\n' ++ t.splitOn '\n' :=
  List.splitOnP_append_cons s t (beq_self_eq_true '\n')

theorem lastLine_append {last : Text} (h : '\n' ∉ last) (t : Text) :
    LastLine (t ++ '\n' :: (last ++ ['\n'])) last := by
  refine ⟨t.splitOn '\n', ?_⟩
  rw [splitOn_append_newline, splitOn_append_newline, List.splitOn_eq_singleton h, List.splitOn_nil]
  rfl

theorem decimal_injective : Function.Injective decimal := by
  intro m n h
  rw [← digitsValue_decimal m, h, digitsValue_decimal]

theorem decimal_ne (h : word.head?.any Char.isDigit = false) : decimal n ≠ word := by
  intro heq
  obtain ⟨d, ds, hd, hdigit⟩ := decimal_eq_cons n
  rw [← heq, hd, List.head?_cons, Option.any_some, hdigit] at h
  cases h

theorem words_decimal (n : Nat) (t : Text) : words (decimal n ++ ' ' :: t) = decimal n :: words t := by
  have hdigits : ∀ c ∈ decimal n, isBlank c = false := fun c hc =>
    isBlank_of_isAlphanum (isAlphanum_of_isDigit (isDigit_of_mem_decimal hc))
  rw [words_append_of_isBlank rfl, words_of_forall (decimal_ne_nil n) hdigits]
  rfl

/-- Among the words of a line a number stands before a word, from which marks are left out. -/
def Labels (ws : List Text) (word : Text) (n : Nat) : Prop :=
  ∃ w, [decimal n, w] <:+: ws ∧ w.filter Char.isAlpha = word

theorem pair_infix_cons {a b x y : Text} :
    [x, y] <:+: a :: b :: ws ↔ x = a ∧ y = b ∨ [x, y] <:+: b :: ws := by
  rw [List.infix_cons_iff, List.cons_prefix_cons, List.cons_prefix_cons]
  simp

/-- A number labels the word behind it. -/
theorem labels_decimal {k : Nat} {w : Text} : Labels (decimal k :: w :: ws) word n ↔
    n = k ∧ word = w.filter Char.isAlpha ∨ Labels (w :: ws) word n := by
  unfold Labels
  simp only [pair_infix_cons, decimal_injective.eq_iff, or_and_right, exists_or, and_assoc,
    exists_and_left, exists_eq_left, eq_comm (a := word)]

/-- A word labels nothing. -/
theorem labels_word {a b : Text} (ha : a.head?.any Char.isDigit = false) :
    Labels (a :: b :: ws) word n ↔ Labels (b :: ws) word n := by
  unfold Labels
  simp only [pair_infix_cons, decimal_ne ha, false_and, false_or]

theorem not_labels_last {a : Text} : ¬ Labels [a] word n := by
  rintro ⟨w, hpair, -⟩
  have hle := hpair.length_le
  simp at hle

end Text

/-! ### Closing lines -/

namespace Run

open Text

variable {run : Run} {line word : Text} {told : List (Nat × Text)} {n : Nat}

theorem Closes.newline_notMem (h : run.Closes line told) : '\n' ∉ line := by
  have hnumber : ∀ n, '\n' ∉ decimal n := fun n hc => absurd (isDigit_of_mem_decimal hc) (by decide)
  cases h with
  | clean _ => decide
  | errors _ => simp [hnumber]
  | warnings _ _ => simp [hnumber]
  | others _ _ _ => simp [hnumber]

/-- What is called "OK" is followed by one count at most. -/
theorem labels_ok (k : Nat) (w : Text) (hne : w ≠ []) (hw : w.any isBlank = false) :
    Labels (words ("OK ".toList ++ decimal k ++ ' ' :: w)) word n ↔
      n = k ∧ word = w.filter Char.isAlpha := by
  have hwords : words ("OK ".toList ++ decimal k ++ ' ' :: w) = ["OK".toList, decimal k, w] := by
    rw [List.append_assoc]
    show words ("OK".toList ++ ' ' :: (decimal k ++ ' ' :: w)) = _
    have hplain : ∀ c ∈ w, isBlank c = false := fun c hc =>
      eq_false_of_ne_true (List.any_eq_false.mp hw c hc)
    rw [words_append_of_isBlank rfl, words_decimal, words_of_forall hne hplain]
    rfl
  rw [hwords, labels_word (by rfl), labels_decimal, iff_false_intro not_labels_last, or_false]

/-- **A closing line labels the counts that it tells and no others.** -/
theorem Closes.labels_iff (h : run.Closes line told) :
    Labels (words line) word n ↔ (n, word) ∈ told := by
  cases h with
  | errors _ =>
      have hwords : words (decimal (run.count .error) ++ " errors, ".toList ++
          decimal (run.count .warning) ++ " warnings".toList) =
          [decimal (run.count .error), "errors,".toList, decimal (run.count .warning),
            "warnings".toList] := by
        rw [List.append_assoc, List.append_assoc]
        show words (decimal _ ++ ' ' :: ("errors,".toList ++ ' ' ::
          (decimal _ ++ ' ' :: "warnings".toList))) = _
        rw [words_decimal, words_append_of_isBlank rfl, words_decimal]
        rfl
      rw [hwords, labels_decimal, labels_word (by rfl), labels_decimal]
      simp [not_labels_last]
  | warnings _ _ =>
      simpa using labels_ok (run.count .warning) "warnings".toList (by decide) rfl
  | clean _ =>
      have hwords : words "OK No issues found".toList =
          ["OK".toList, "No".toList, "issues".toList, "found".toList] := by decide
      rw [hwords, labels_word (by rfl), labels_word (by rfl), labels_word (by rfl)]
      simp [not_labels_last]
  | others _ _ _ =>
      simpa using labels_ok run.findings.length "notes".toList (by decide) rfl

/-! ### Counts -/

/-- The findings of a severity. -/
def rated (run : Run) (s : Severity) : List Finding := run.findings.filter (·.severity = s)

theorem count_eq (run : Run) (s : Severity) : run.count s = (run.rated s).length :=
  List.countP_eq_length_filter

/-- Every finding has one of the four severities. -/
theorem length_findings (run : Run) : run.findings.length =
    run.count .error + run.count .warning + run.count .note + run.count .none := by
  unfold count
  induction run.findings with
  | nil => rfl
  | cons f fs ih =>
      simp only [List.length_cons, List.countP_cons, ih]
      cases f.severity <;> simp <;> omega

theorem lastLine_summary {last : Text} (colors : Bool) (h : '\n' ∉ last)
    (hclosing : run.closing colors = last ++ ['\n']) : LastLine (run.summary colors) last := by
  obtain ⟨front, hfront⟩ : ∃ front, run.heading colors ++
      run.findings.flatMap (Finding.summaryLine colors) = front ++ ['\n'] := by
    obtain hnil | ⟨fs, f, hfs⟩ := List.eq_nil_or_concat run.findings
    · refine ⟨Style.bold.paint colors run.targetLabel ++ " (".toList ++ run.toolName ++ [')'], ?_⟩
      rw [hnil, List.flatMap_nil, List.append_nil, heading, List.append_assoc _ [')']]
      rfl
    · refine ⟨run.heading colors ++ fs.flatMap (Finding.summaryLine colors) ++ f.said colors, ?_⟩
      rw [hfs, List.concat_eq_append, List.flatMap_append, List.flatMap_singleton,
        Finding.summaryLine_eq]
      simp only [List.append_assoc]
  rw [summary, hfront, hclosing, List.append_assoc]
  exact lastLine_append h front

/-- Only a line that tells no counts says that there are no issues. -/
theorem Closes.eq_clean_iff (h : run.Closes line told) :
    line = "OK No issues found".toList ↔ run.findings = [] := by
  constructor
  · intro hline
    have hnothing : ∀ word n, (n, word) ∉ told := by
      intro word n
      have hclean : ({ run with findings := [] } : Run).Closes _ _ := .clean rfl
      rw [← h.labels_iff, hline, hclean.labels_iff]
      exact List.not_mem_nil
    cases h with
    | clean hempty => exact hempty
    | errors _ => exact absurd List.mem_cons_self (hnothing _ _)
    | warnings _ _ => exact absurd List.mem_cons_self (hnothing _ _)
    | others _ _ _ => exact absurd List.mem_cons_self (hnothing _ _)
  · intro hempty
    cases h with
    | clean _ => rfl
    | errors herrors => simp [count, hempty] at herrors
    | warnings _ hwarnings => simp [count, hempty] at hwarnings
    | others _ _ hne => exact absurd hempty hne

/-- **What the closing line of a summary counts.**  Errors and warnings are counted by their
severity, and errors are told just if there are some.  What it calls notes is the rest, with and
without a severity, and it tells of no issues just if there are no findings. -/
theorem closing_counts (run : Run) (colors : Bool) :
    ∃ last, LastLine (run.summary colors) last ∧
      (∀ n, Labels (words (unstyled last)) "errors".toList n ↔
        0 < (run.rated .error).length ∧ n = (run.rated .error).length) ∧
      (∀ n, Labels (words (unstyled last)) "warnings".toList n ↔
        (0 < (run.rated .error).length ∨ 0 < (run.rated .warning).length) ∧
          n = (run.rated .warning).length) ∧
      (∀ n, Labels (words (unstyled last)) "notes".toList n ↔
        run.findings ≠ [] ∧ (run.rated .error).length = 0 ∧ (run.rated .warning).length = 0 ∧
          n = (run.rated .note).length + (run.rated .none).length) ∧
      (unstyled last = "OK No issues found".toList ↔ run.findings = []) := by
  obtain ⟨line, told, last, hcloses, hlast, hclosing, -⟩ := run.exists_closes colors
  have hline : unstyled last = line := hlast.unstyled_eq
  have hnewline : '\n' ∉ last := by
    intro hmem
    exact hcloses.newline_notMem (hline ▸ newline_mem_unstyled hmem)
  refine ⟨last, lastLine_summary colors hnewline hclosing, ?_⟩
  simp only [hline, hcloses.labels_iff, hcloses.eq_clean_iff, ← count_eq]
  have htotal := run.length_findings
  cases hcloses with
  | errors herrors => simp [herrors, Nat.ne_of_gt herrors]
  | warnings hnone hwarnings => simp [hnone, hwarnings, Nat.ne_of_gt hwarnings]
  | clean hempty => simp [hempty, count]
  | others herrors hwarnings hne =>
      have hrest : run.findings.length = run.count .note + run.count .none := by omega
      simp [herrors, hwarnings, hne, hrest]

/-- A note and a finding without a severity are counted as two notes. -/
theorem notes_unrated :
    let run : Run :=
      { toolName := "vet".toList
        targetLabel := "//go:pkg".toList
        findings := [.about "a.go".toList .note "m".toList, .about "b.go".toList .none "n".toList] }
    LastLine (run.summary false) "OK 2 notes".toList ∧
      Labels (words "OK 2 notes".toList) "notes".toList 2 ∧ (run.rated .note).length = 1 := by
  intro run
  have hlines : (run.summary false).splitOn '\n' =
      ["//go:pkg (vet)".toList, "NOTE a.go - m".toList, "NONE b.go - n".toList] ++
        ["OK 2 notes".toList, []] := by decide +kernel
  have hwords : ["OK".toList] ++ [decimal 2, "notes".toList] ++ [] = words "OK 2 notes".toList := by
    decide
  exact ⟨⟨_, hlines⟩, ⟨_, ⟨_, _, hwords⟩, by decide⟩, by decide⟩

end Run

end LintFindings
