/-
Colors add style sequences and nothing else.

A style sequence is an escape character, an opening bracket, digits and semicolons, and the
letter m.  `unstyled` deletes all of them from a text.  Whether a text reads as another one
without them depends on what stands behind it, since a sequence could begin in one text and end in
the next; so `ReadsAs` is said of every text that may follow, and then it goes from the pieces of
a text to the whole.

A painted text reads as itself as long as it has no escape character of its own
(`ReadsAs.paint`).  The pieces of a summary are painted texts and plain ones, put together in the
same way with colors and without, and this is all that `unstyled_summary` needs.
-/
import LintFindings.Summary
import LintFindings.Proofs.Text

namespace LintFindings

/-! ### Style sequences -/

namespace Text

variable {s t u v : Text} {c : Char}

/-- The characters between the opening bracket and the end of a style sequence. -/
def isStyleCode (c : Char) : Bool := c.isDigit || c == ';'

/-- What follows the style sequence that a text begins with. -/
def afterStyle? : Text → Option Text
  | '\x1b' :: '[' :: t =>
    match t.dropWhile isStyleCode with
    | 'm' :: rest => some rest
    | _ => none
  | _ => none

/-- A style sequence may have any digits and semicolons. -/
theorem afterStyle?_eq_some_iff : afterStyle? t = some u ↔
    ∃ codes : Text, (∀ c ∈ codes, isStyleCode c = true) ∧
      t = '\x1b' :: '[' :: (codes ++ 'm' :: u) := by
  constructor
  · intro h
    unfold afterStyle? at h
    split at h
    · rename_i behind
      split at h
      · rename_i rest hrest
        cases h
        refine ⟨behind.takeWhile isStyleCode, fun _ => List.mem_takeWhile_imp, ?_⟩
        rw [← hrest, List.takeWhile_append_dropWhile]
      · cases h
    · cases h
  · rintro ⟨codes, hcodes, rfl⟩
    have hend : ∀ c ∈ ('m' :: u).head?, isStyleCode c = false := head?_cons_of (by decide)
    have hrest : (codes ++ 'm' :: u).dropWhile isStyleCode = 'm' :: u := dropWhile_run hcodes hend
    simp only [afterStyle?, hrest]

theorem length_of_afterStyle? (h : afterStyle? t = some u) : u.length < t.length := by
  obtain ⟨codes, -, rfl⟩ := afterStyle?_eq_some_iff.mp h
  simp only [List.length_cons, List.length_append]
  omega

/-- A text without its style sequences. -/
def unstyled (t : Text) : Text :=
  match _h : afterStyle? t with
  | some rest => unstyled rest
  | none =>
    match t with
    | [] => []
    | c :: rest => c :: unstyled rest
termination_by t.length
decreasing_by
  · exact length_of_afterStyle? _h
  · exact Nat.lt_succ_self _

theorem unstyled_of_afterStyle? (h : afterStyle? t = some u) : unstyled t = unstyled u := by
  rw [unstyled]
  split
  · rename_i rest hrest
    rw [Option.some.inj (hrest.symm.trans h)]
  · rename_i hnone
    rw [h] at hnone
    cases hnone

theorem unstyled_sequence (codes : Text) (hcodes : codes.all isStyleCode = true) (t : Text) :
    unstyled ('\x1b' :: '[' :: (codes ++ 'm' :: t)) = unstyled t :=
  unstyled_of_afterStyle? (afterStyle?_eq_some_iff.mpr ⟨codes, List.all_eq_true.mp hcodes, rfl⟩)

theorem unstyled_nil : unstyled [] = [] := by
  rw [unstyled]
  rfl

theorem unstyled_cons (hc : c ≠ '\x1b') (t : Text) : unstyled (c :: t) = c :: unstyled t := by
  have hnone : afterStyle? (c :: t) = none := by
    unfold afterStyle?
    split
    · rename_i heq
      exact absurd (List.cons.inj heq).1 hc
    · rfl
  rw [unstyled]
  split
  · rename_i hsome
    rw [hnone] at hsome
    cases hsome
  · rfl

theorem unstyled_append (h : '\x1b' ∉ s) (t : Text) : unstyled (s ++ t) = s ++ unstyled t := by
  induction s with
  | nil => rfl
  | cons c s ih =>
      rw [List.mem_cons, not_or] at h
      obtain ⟨hc, hs⟩ := h
      rw [List.cons_append, unstyled_cons (Ne.symm hc), ih hs, List.cons_append]

/-- No line feed is deleted. -/
theorem newline_mem_unstyled (h : '\n' ∈ t) : '\n' ∈ unstyled t := by
  fun_induction unstyled t with
  | case1 t rest hrest ih =>
      obtain ⟨codes, hcodes, rfl⟩ := afterStyle?_eq_some_iff.mp hrest
      have hcode : '\n' ∉ codes := fun hmem => absurd (hcodes _ hmem) (by decide)
      exact ih (by simpa [hcode] using h)
  | case2 => exact h
  | case3 c rest _ ih =>
      rcases List.mem_cons.mp h with rfl | hrest
      · exact List.mem_cons_self
      · exact List.mem_cons_of_mem c (ih hrest)

/-! ### Texts that read as others -/

/-- Without style sequences, a text reads as another one, whatever stands behind it. -/
def ReadsAs (s t : Text) : Prop := ∀ rest, unstyled (s ++ rest) = t ++ unstyled rest

theorem ReadsAs.plain (h : '\x1b' ∉ t) : ReadsAs t t := unstyled_append h

theorem ReadsAs.append (h : ReadsAs s t) (h' : ReadsAs u v) : ReadsAs (s ++ u) (t ++ v) := by
  intro rest
  rw [List.append_assoc, h, h', List.append_assoc]

theorem ReadsAs.cons (hc : c ≠ '\x1b') (h : ReadsAs s t) : ReadsAs (c :: s) (c :: t) := by
  intro rest
  rw [List.cons_append, unstyled_cons hc, h, List.cons_append]

theorem ReadsAs.flatMap {α : Type} {l : List α} {f g : α → Text}
    (h : ∀ a ∈ l, ReadsAs (f a) (g a)) : ReadsAs (l.flatMap f) (l.flatMap g) := by
  induction l with
  | nil => exact .plain List.not_mem_nil
  | cons a l ih =>
      obtain ⟨ha, hl⟩ := List.forall_mem_cons.mp h
      exact ha.append (ih hl)

theorem ReadsAs.unstyled_eq (h : ReadsAs s t) : unstyled s = t := by
  have hend := h []
  rwa [unstyled_nil, List.append_nil, List.append_nil] at hend

end Text

/-! ### Painted texts -/

namespace Style

open Text

variable {t : Text}

theorem unstyled_start (s : Style) (t : Text) : unstyled (s.start ++ t) = unstyled t := by
  cases s with
  | bold => exact unstyled_sequence ['1'] rfl t
  | dimmed => exact unstyled_sequence ['2'] rfl t
  | boldRed => exact unstyled_sequence ['1', ';', '3', '1'] rfl t
  | boldYellow => exact unstyled_sequence ['1', ';', '3', '3'] rfl t
  | boldGreen => exact unstyled_sequence ['1', ';', '3', '2'] rfl t
  | yellow => exact unstyled_sequence ['3', '3'] rfl t
  | blue => exact unstyled_sequence ['3', '4'] rfl t

theorem unstyled_reset (t : Text) : unstyled (reset ++ t) = unstyled t :=
  unstyled_sequence ['0'] rfl t

/-- A text in which no style is turned off stays as it is. -/
theorem restart_of_notMem (s : Style) (h : '\x1b' ∉ t) : restart s t = t := by
  induction t with
  | nil => rfl
  | cons c t ih =>
      rw [List.mem_cons, not_or] at h
      obtain ⟨hc, ht⟩ := h
      rw [restart.eq_2 s c t fun _ hc' => absurd hc'.symm hc, ih ht]

/-- **A painted text reads as what was painted.** -/
theorem readsAs_paint (s : Style) (colors : Bool) (h : '\x1b' ∉ t) :
    ReadsAs (s.paint colors t) t := by
  cases colors with
  | false => exact .plain h
  | true =>
      intro rest
      show unstyled (s.start ++ restart s t ++ reset ++ rest) = t ++ unstyled rest
      rw [restart_of_notMem s h, List.append_assoc, List.append_assoc, unstyled_start,
        unstyled_append h, unstyled_reset]

end Style

/-! ### Pieces of summaries -/

/-- The word for a severity in a summary. -/
def Severity.tag (colors : Bool) : Severity → Text
  | error => Style.boldRed.paint colors "ERROR".toList
  | warning => Style.boldYellow.paint colors "WARN".toList
  | note => Style.blue.paint colors "NOTE".toList
  | none => "NONE".toList

theorem Severity.readsAs_tag (colors : Bool) (s : Severity) :
    Text.ReadsAs (s.tag colors) (s.tag false) := by
  cases s with
  | error => exact Style.boldRed.readsAs_paint colors (by decide)
  | warning => exact Style.boldYellow.readsAs_paint colors (by decide)
  | note => exact Style.blue.readsAs_paint colors (by decide)
  | none =>
      have hword : '\x1b' ∉ "NONE".toList := by decide
      exact .plain hword

namespace Finding

variable {f : Finding} {c : Char}

/-- A finding whose file, rule and message do not have a character. -/
structure Lacks (f : Finding) (c : Char) : Prop where
  filePath : c ∉ f.filePath
  ruleId : ∀ rule ∈ f.ruleId, c ∉ rule
  message : c ∉ f.message

instance (f : Finding) (c : Char) : Decidable (f.Lacks c) :=
  decidable_of_iff (c ∉ f.filePath ∧ (∀ rule ∈ f.ruleId, c ∉ rule) ∧ c ∉ f.message)
    ⟨fun h => ⟨h.1, h.2.1, h.2.2⟩, fun h => ⟨h.filePath, h.ruleId, h.message⟩⟩

/-- What a summary says of the rule of a finding. -/
def saidRule (colors : Bool) (f : Finding) : Text :=
  match f.ruleId with
  | some rule => " (".toList ++ Style.dimmed.paint colors rule ++ [')']
  | none => []

/-- What a summary says of a finding. -/
def said (colors : Bool) (f : Finding) : Text :=
  f.severity.tag colors ++ ' ' :: Style.dimmed.paint colors f.place ++ " - ".toList ++ f.message ++
    f.saidRule colors

theorem summaryLine_eq (colors : Bool) (f : Finding) :
    f.summaryLine colors = f.said colors ++ ['\n'] := by
  unfold summaryLine said saidRule
  cases f.severity <;> rfl

/-- A place is a file with numbers and colons. -/
theorem notMem_place (hfile : c ∉ f.filePath) (hcolon : c ≠ ':') (hdigit : c.isDigit = false) :
    c ∉ f.place := by
  have hnumber : ∀ n, c ∉ Text.decimal n := by
    intro n hc
    rw [Text.isDigit_of_mem_decimal hc] at hdigit
    cases hdigit
  unfold place
  split <;> simp [hfile, hcolon, hnumber]

theorem readsAs_said (h : f.Lacks '\x1b') (colors : Bool) :
    Text.ReadsAs (f.said colors) (f.said false) := by
  have hplace : Text.ReadsAs (' ' :: Style.dimmed.paint colors f.place) (' ' :: f.place) :=
    .cons (by decide) (Style.dimmed.readsAs_paint colors
      (notMem_place h.filePath (by decide) (by decide)))
  have hrule : Text.ReadsAs (f.saidRule colors) (f.saidRule false) := by
    unfold saidRule
    cases hruleId : f.ruleId with
    | none => exact .plain List.not_mem_nil
    | some rule =>
        have hpainted := Style.dimmed.readsAs_paint colors (h.ruleId rule hruleId)
        exact ((Text.ReadsAs.plain (by decide)).append hpainted).append (.plain (by decide))
  have hstart := (f.severity.readsAs_tag colors).append hplace
  exact ((hstart.append (.plain (by decide))).append (.plain h.message)).append hrule

end Finding

/-! ### Summaries -/

namespace Run

variable {run : Run}

/-- A run whose texts do not have a character, as far as a summary tells them. -/
structure Lacks (run : Run) (c : Char) : Prop where
  targetLabel : c ∉ run.targetLabel
  toolName : c ∉ run.toolName
  findings : ∀ f ∈ run.findings, f.Lacks c

theorem readsAs_heading (hlabel : '\x1b' ∉ run.targetLabel) (htool : '\x1b' ∉ run.toolName)
    (colors : Bool) : Text.ReadsAs (run.heading colors) (run.heading false) := by
  have hpainted := Style.bold.readsAs_paint colors hlabel
  exact ((hpainted.append (.plain (by decide))).append (.plain htool)).append (.plain (by decide))

/-- The closing line of a run without its line feed and its colors, and the counts that it tells,
each with the word for what is counted. -/
inductive Closes (run : Run) : Text → List (Nat × Text) → Prop
  | errors (h : 0 < run.count .error) :
      Closes run
        (Text.decimal (run.count .error) ++ " errors, ".toList ++ Text.decimal (run.count .warning) ++
          " warnings".toList)
        [(run.count .error, "errors".toList), (run.count .warning, "warnings".toList)]
  | warnings (h : run.count .error = 0) (h' : 0 < run.count .warning) :
      Closes run ("OK ".toList ++ Text.decimal (run.count .warning) ++ " warnings".toList)
        [(run.count .warning, "warnings".toList)]
  | clean (h : run.findings = []) : Closes run "OK No issues found".toList []
  | others (h : run.count .error = 0) (h' : run.count .warning = 0) (hne : run.findings ≠ []) :
      Closes run ("OK ".toList ++ Text.decimal run.findings.length ++ " notes".toList)
        [(run.findings.length, "notes".toList)]

/-- A closing line has one of these forms, with colors and without. -/
theorem exists_closes (run : Run) (colors : Bool) : ∃ line told last, run.Closes line told ∧
    Text.ReadsAs last line ∧ run.closing colors = last ++ ['\n'] ∧
    run.closing false = line ++ ['\n'] := by
  have hnumber : ∀ n, '\x1b' ∉ Text.decimal n := fun n hc =>
    absurd (Text.isDigit_of_mem_decimal hc) (by decide)
  have hok : Text.ReadsAs (Style.boldGreen.paint colors "OK".toList ++ [' ']) "OK ".toList :=
    (Style.boldGreen.readsAs_paint colors (by decide)).append (.plain (by decide))
  have hwarnings := Style.yellow.readsAs_paint colors (hnumber (run.count .warning))
  unfold closing
  dsimp only
  split
  · rename_i hfailed
    have hpos : 0 < run.count .error := by simpa [passed, Nat.pos_iff_ne_zero] using hfailed
    have herrors := Style.boldRed.readsAs_paint colors (hnumber (run.count .error))
    refine ⟨_, _, _, .errors hpos,
      ((herrors.append (.plain (by decide))).append hwarnings).append (.plain (by decide)), ?_, ?_⟩
    · simp
    · simp [Style.paint]
  · rename_i hpassed
    have hzero : run.count .error = 0 := by simpa [passed] using hpassed
    split
    · rename_i hpos
      refine ⟨_, _, _, .warnings hzero hpos, (hok.append hwarnings).append (.plain (by decide)), ?_, ?_⟩
      · simp
      · simp [Style.paint]
    · rename_i hnone
      split
      · rename_i hempty
        have hclean : Text.ReadsAs
            (Style.boldGreen.paint colors "OK".toList ++ " No issues found".toList)
            "OK No issues found".toList :=
          (Style.boldGreen.readsAs_paint colors (by decide)).append (.plain (by decide))
        refine ⟨_, _, _, .clean hempty, hclean, ?_, rfl⟩
        rw [List.append_assoc]
        rfl
      · rename_i hne
        refine ⟨_, _, _, .others hzero (Nat.eq_zero_of_not_pos hnone) hne,
          (hok.append (.plain (hnumber _))).append (.plain (by decide)), ?_, ?_⟩
        · simp
        · simp [Style.paint]

/-- **Colors only add style sequences.**  Deleting them from a summary with colors leaves the
summary without. -/
theorem unstyled_summary (h : run.Lacks '\x1b') :
    Text.unstyled (run.summary true) = run.summary false := by
  have hheading := readsAs_heading h.targetLabel h.toolName true
  have hlines : Text.ReadsAs (run.findings.flatMap (Finding.summaryLine true))
      (run.findings.flatMap (Finding.summaryLine false)) := by
    refine Text.ReadsAs.flatMap ?_
    intro f hf
    rw [Finding.summaryLine_eq, Finding.summaryLine_eq]
    exact (Finding.readsAs_said (h.findings f hf) true).append (.plain (by decide))
  have hclosing : Text.ReadsAs (run.closing true) (run.closing false) := by
    obtain ⟨line, told, last, -, hlast, htrue, hfalse⟩ := run.exists_closes true
    rw [htrue, hfalse]
    exact hlast.append (.plain (by decide))
  exact ((hheading.append hlines).append hclosing).unstyled_eq

/-- An error with a position and a rule, and a note about a file whose name looks like the rest of
a style sequence: the summary with colors, and what it is without them. -/
theorem unstyled_summary_note :
    let run : Run :=
      { toolName := "vet".toList
        targetLabel := []
        findings :=
          [{ Finding.about "a.go".toList .error "boom".toList with
              line := some 1, column := some 2, ruleId := some "E1".toList },
            .about "[1;31m".toList .note [] ] }
    run.Lacks '\x1b' ∧
      run.summary true = ("\x1b[1m\x1b[0m (vet)\n" ++
        "\x1b[1;31mERROR\x1b[0m \x1b[2ma.go:1:2\x1b[0m - boom (\x1b[2mE1\x1b[0m)\n" ++
        "\x1b[34mNOTE\x1b[0m \x1b[2m[1;31m\x1b[0m - \n" ++
        "\x1b[1;31m1\x1b[0m errors, \x1b[33m0\x1b[0m warnings\n").toList ∧
      Text.unstyled (run.summary true) =
        " (vet)\nERROR a.go:1:2 - boom (E1)\nNOTE [1;31m - \n1 errors, 0 warnings\n".toList := by
  intro run
  have hrun : run.Lacks '\x1b' := ⟨by decide, by decide, by decide⟩
  refine ⟨hrun, by decide +kernel, ?_⟩
  rw [unstyled_summary hrun]
  decide +kernel

end Run

end LintFindings
