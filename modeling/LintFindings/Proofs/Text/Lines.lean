/-
Lines and words, and the blanks around them.

`lines` cuts a text as files are cut into lines: line feeds end them, a carriage
return in front of a line feed is no part of its line, and nothing after the last line
feed is no line.  A report is read by its solid lines, the trimmed ones that are not
blank, and these can be had from the lines (`solidLines_eq_lines`) or straight from the
pieces between line feeds.

The solid lines of two texts with a line feed between them are those of the one and
then those of the other (`solidLines_append_newline`).  Blanks at either end of a text
are no part of a solid line, so trimming the text first changes nothing
(`solidLines_trim`).
-/
import LintFindings.Proofs.Text

namespace LintFindings.Text

variable {t : Text} {c : Char}

/-! ### Pieces -/

theorem pieces_cons (sep : Char → Bool) (c : Char) (t : Text) : pieces sep (c :: t) =
    if sep c then [] :: pieces sep t else onFirst c (pieces sep t) := rfl

theorem pieces_eq_splitOnP (sep : Char → Bool) (t : Text) : pieces sep t = t.splitOnP sep := by
  induction t with
  | nil => rfl
  | cons c t ih =>
      rw [pieces_cons, ih, List.splitOnP_cons_eq_if_modifyHead]
      by_cases hc : sep c = true
      · rw [if_pos hc, if_pos hc]
      · rw [if_neg hc, if_neg hc]
        cases hps : t.splitOnP sep with
        | nil => exact absurd hps (List.splitOnP_ne_nil sep t)
        | cons p ps => rfl

theorem pieces_ne_nil (sep : Char → Bool) (t : Text) : pieces sep t ≠ [] := by
  rw [pieces_eq_splitOnP]
  exact List.splitOnP_ne_nil sep t

/-- No piece has a character that the text is cut at. -/
theorem sep_of_mem_pieces {sep : Char → Bool} {p : Text} (h : p ∈ pieces sep t) :
    ∀ d ∈ p, sep d = false := by
  induction t generalizing p with
  | nil =>
      rw [List.mem_singleton.mp h]
      exact List.forall_mem_nil _
  | cons c t ih =>
      rw [pieces_cons] at h
      split at h
      · rcases List.mem_cons.mp h with rfl | h
        · exact List.forall_mem_nil _
        · exact ih h
      · rename_i hc
        obtain ⟨q, qs, hqs⟩ := List.ne_nil_iff_exists_cons.mp (pieces_ne_nil sep t)
        rw [hqs] at h ih
        rcases List.mem_cons.mp h with rfl | h
        · exact List.forall_mem_cons.mpr ⟨eq_false_of_ne_true hc, ih List.mem_cons_self⟩
        · exact ih (List.mem_cons_of_mem q h)

/-! ### Trimming beside a blank -/

theorem trim_cons_of_isBlank (hc : isBlank c = true) (t : Text) : trim (c :: t) = trim t := by
  rw [trim, trimStart, List.dropWhile_cons_of_pos hc, ← trimStart, ← trim]

theorem trimEnd_append_of_isBlank (hc : isBlank c = true) (t : Text) :
    trimEnd (t ++ [c]) = trimEnd t := by
  simp [trimEnd, hc]

theorem trim_append_of_isBlank (hc : isBlank c = true) (t : Text) :
    trim (t ++ [c]) = trim t := by
  rw [trim, trim, trimStart, trimStart, List.dropWhile_append]
  cases ht : t.dropWhile isBlank with
  | nil => simp [hc]
  | cons d u => exact trimEnd_append_of_isBlank hc (d :: u)

theorem trimmed?_congr {s : Text} (h : trim s = trim t) : trimmed? s = trimmed? t := by
  rw [trimmed?, trimmed?, h]

/-! ### Solid lines -/

@[simp] theorem solidLines_nil : solidLines [] = [] := rfl

/-- A text without line feeds is one line. -/
theorem solidLines_of_notMem (h : '\n' ∉ t) : solidLines t = (trimmed? t).toList := by
  have hsep : ∀ d ∈ t, (d == '\n') = false := by
    intro d hd
    rw [beq_eq_false_iff_ne]
    rintro rfl
    exact h hd
  rw [solidLines, pieces_eq_splitOnP, List.splitOnP_eq_singleton hsep, List.filterMap_cons]
  cases trimmed? t <;> rfl

/-- **A line feed joins no lines and cuts none.** -/
theorem solidLines_append_newline (s t : Text) :
    solidLines (s ++ '\n' :: t) = solidLines s ++ solidLines t := by
  have hsplit := List.splitOnP_append_cons (p := (· == '\n')) s t (beq_self_eq_true '\n')
  simp only [solidLines, pieces_eq_splitOnP, hsplit, List.filterMap_append]

theorem solidLines_cons_newline (t : Text) : solidLines ('\n' :: t) = solidLines t :=
  solidLines_append_newline [] t

theorem solidLines_cons_of_isBlank (hc : isBlank c = true) (t : Text) :
    solidLines (c :: t) = solidLines t := by
  by_cases hnewline : c = '\n'
  · rw [hnewline, solidLines_cons_newline]
  · have hstep : pieces (· == '\n') (c :: t) = onFirst c (pieces (· == '\n') t) := by
      simp [pieces, hnewline]
    cases hps : pieces (· == '\n') t with
    | nil => exact absurd hps (pieces_ne_nil _ t)
    | cons p ps =>
        rw [solidLines, solidLines, hstep, hps, onFirst, List.filterMap_cons, List.filterMap_cons,
          trimmed?_congr (trim_cons_of_isBlank hc p)]

/-- The blank is on the last line, so the lines before it are taken off one by one. -/
theorem solidLines_append_of_isBlank (hc : isBlank c = true) (t : Text) :
    solidLines (t ++ [c]) = solidLines t := by
  by_cases hnewline : c = '\n'
  · rw [hnewline, solidLines_append_newline, solidLines_nil, List.append_nil]
  · induction hn : t.length using Nat.strongRecOn generalizing t with
    | ind n ih =>
        by_cases hmem : '\n' ∈ t
        · obtain ⟨s, u, rfl⟩ := List.append_of_mem hmem
          have hu : u.length < n := by
            rw [← hn, List.length_append, List.length_cons]
            omega
          rw [List.append_assoc, List.cons_append, solidLines_append_newline, ih _ hu u rfl,
            solidLines_append_newline]
        · have hmem' : '\n' ∉ t ++ [c] := by
            simpa [hmem] using Ne.symm hnewline
          rw [solidLines_of_notMem hmem, solidLines_of_notMem hmem',
            trimmed?_congr (trim_append_of_isBlank hc t)]

theorem solidLines_trimStart (t : Text) : solidLines (trimStart t) = solidLines t := by
  induction t with
  | nil => rfl
  | cons c t ih =>
      by_cases hc : isBlank c = true
      · rw [trimStart, List.dropWhile_cons_of_pos hc, ← trimStart, ih,
          solidLines_cons_of_isBlank hc]
      · rw [trimStart, List.dropWhile_cons_of_neg hc]

theorem solidLines_trimEnd (t : Text) : solidLines (trimEnd t) = solidLines t := by
  induction t using List.reverseRecOn with
  | nil => rfl
  | append_singleton t c ih =>
      by_cases hc : isBlank c = true
      · rw [trimEnd_append_of_isBlank hc, ih, solidLines_append_of_isBlank hc]
      · simp [trimEnd, hc]

/-- **The blanks around a text are on no line.** -/
theorem solidLines_trim (t : Text) : solidLines (trim t) = solidLines t := by
  rw [trim, solidLines_trimEnd, solidLines_trimStart]

/-- A text without solid lines is blank.  Blanks are taken off its front, and another character
would be on a line. -/
theorem solidLines_eq_nil_iff : solidLines t = [] ↔ trim t = [] := by
  constructor
  · intro h
    induction t with
    | nil => rfl
    | cons c t ih =>
        by_cases hc : isBlank c = true
        · rw [solidLines_cons_of_isBlank hc] at h
          rw [trim_cons_of_isBlank hc]
          exact ih h
        · exfalso
          have hnewline : c ≠ '\n' := by
            rintro rfl
            exact hc (by decide)
          have hstep : pieces (· == '\n') (c :: t) = onFirst c (pieces (· == '\n') t) := by
            simp [pieces, hnewline]
          cases hps : pieces (· == '\n') t with
          | nil => exact pieces_ne_nil _ t hps
          | cons p ps =>
              have hsolid : trimmed? (c :: p) = none := by
                rw [solidLines, hstep, hps, onFirst, List.filterMap_eq_nil_iff] at h
                exact h _ List.mem_cons_self
              exact trim_ne_nil_of_mem List.mem_cons_self (eq_false_of_ne_true hc)
                (trimmed?_eq_none_iff.mp hsolid)
  · intro h
    rw [← solidLines_trim, h]
    rfl

/-! ### Lines -/

/-- Without a carriage return at its end. -/
def dropReturn (line : Text) : Text :=
  if line.getLast? = some '\r' then line.dropLast else line

/-- The lines of a text, without what ends them. -/
def lines (t : Text) : List Text :=
  let ps := pieces (· == '\n') t
  ps.dropLast.map dropReturn ++ ps.getLast?.toList.filter (· ≠ [])

/-- What ends a line is blank. -/
theorem trim_dropReturn (line : Text) : trim (dropReturn line) = trim line := by
  unfold dropReturn
  split
  · rename_i hlast
    obtain ⟨front, rfl⟩ := List.getLast?_eq_some_iff.mp hlast
    rw [List.dropLast_concat, trim_append_of_isBlank (by decide)]
  · rfl

theorem filterMap_trimmed? (ls : List Text) :
    ls.filterMap trimmed? = (ls.map trim).filter (· ≠ []) := by
  induction ls with
  | nil => rfl
  | cons l ls ih =>
      rw [List.filterMap_cons, List.map_cons, List.filter_cons, ih]
      cases hl : trimmed? l with
      | none => simp [trimmed?_eq_none_iff.mp hl]
      | some u =>
          obtain ⟨rfl, hne⟩ := trimmed?_eq_some_iff.mp hl
          simp [hne]

/-- **The solid lines are what is left of the lines when they are trimmed.** -/
theorem solidLines_eq_lines (t : Text) :
    solidLines t = ((lines t).map trim).filter (· ≠ []) := by
  obtain ⟨ps, p, hps⟩ : ∃ ps p, pieces (· == '\n') t = ps ++ [p] :=
    ⟨_, _, (List.dropLast_append_getLast (pieces_ne_nil _ t)).symm⟩
  have hends : (ps.map dropReturn).map trim = ps.map trim := by
    rw [List.map_map]
    exact List.map_congr_left fun l _ => trim_dropReturn l
  have hlast : (([p].filter (· ≠ [])).map trim).filter (· ≠ [])
      = ([p].map trim).filter (· ≠ []) := by
    cases p <;> simp [trim, trimStart, trimEnd]
  simp only [lines, hps, List.dropLast_concat, List.getLast?_concat, Option.toList_some,
    List.map_append, List.filter_append, hends, hlast]
  rw [solidLines, hps, filterMap_trimmed?, List.map_append, List.filter_append]

/-! ### Words -/

/-- A blank joins no words and cuts none. -/
theorem words_append_of_isBlank (hc : isBlank c = true) (s t : Text) :
    words (s ++ c :: t) = words s ++ words t := by
  rw [words, words, words, pieces_eq_splitOnP, pieces_eq_splitOnP, pieces_eq_splitOnP,
    List.splitOnP_append_cons s t hc, List.filter_append]

/-- A text without blanks is one word. -/
theorem words_of_forall {w : Text} (hne : w ≠ []) (hw : ∀ c ∈ w, isBlank c = false) :
    words w = [w] := by
  rw [words, pieces_eq_splitOnP, List.splitOnP_eq_singleton hw,
    List.filter_cons_of_pos (by simpa using hne), List.filter_nil]

/-- Blanks in front of a text are no part of a word. -/
theorem words_gap {gap : Text} (hgap : ∀ c ∈ gap, isBlank c = true) (t : Text) :
    words (gap ++ t) = words t := by
  induction gap with
  | nil => rfl
  | cons c gap ih =>
      have hstep : pieces isBlank (c :: (gap ++ t)) = [] :: pieces isBlank (gap ++ t) := by
        simp [pieces, hgap c List.mem_cons_self]
      have hskip : words (c :: (gap ++ t)) = words (gap ++ t) := by
        rw [words, hstep, words, List.filter_cons_of_neg (by simp)]
      rw [List.cons_append, hskip]
      exact ih fun d hd => hgap d (List.mem_cons_of_mem c hd)

/-- A run of other characters, with a blank or nothing behind it, is the first word. -/
theorem words_run {w behind : Text} (hne : w ≠ []) (hw : ∀ c ∈ w, isBlank c = false)
    (hbehind : ∀ c ∈ behind.head?, isBlank c = true) : (words (w ++ behind)).head? = some w := by
  have hpieces : ∃ ps, pieces isBlank (w ++ behind) = w :: ps := by
    rw [pieces_eq_splitOnP]
    cases behind with
    | nil =>
        rw [List.append_nil, List.splitOnP_eq_singleton hw]
        exact ⟨[], rfl⟩
    | cons c behind =>
        rw [List.splitOnP_append_cons w behind (hbehind c rfl), List.splitOnP_eq_singleton hw]
        exact ⟨_, rfl⟩
  obtain ⟨ps, hps⟩ := hpieces
  rw [words, hps, List.filter_cons_of_pos (by simpa using hne), List.head?_cons]

/-- **The first word of a text** stands behind any blanks and reaches to the next one. -/
theorem words_head?_eq_some_iff {w : Text} : (words t).head? = some w ↔
    ∃ gap behind, t = gap ++ (w ++ behind) ∧ (∀ c ∈ gap, isBlank c = true) ∧ w ≠ [] ∧
      (∀ c ∈ w, isBlank c = false) ∧ ∀ c ∈ behind.head?, isBlank c = true := by
  constructor
  · intro h
    have hsplit : t = t.takeWhile isBlank ++ trimStart t := List.takeWhile_append_dropWhile.symm
    have hgap : ∀ c ∈ t.takeWhile isBlank, isBlank c = true := fun _ => List.mem_takeWhile_imp
    have hword : trimStart t =
        (trimStart t).takeWhile (!isBlank ·) ++ (trimStart t).dropWhile (!isBlank ·) :=
      List.takeWhile_append_dropWhile.symm
    have hne : (trimStart t).takeWhile (!isBlank ·) ≠ [] := by
      intro hnil
      cases hu : trimStart t with
      | nil =>
          rw [hsplit, words_gap hgap, hu] at h
          cases h
      | cons c u =>
          have hc := trimStart_head t c (by rw [hu]; rfl)
          rw [hu, List.takeWhile_cons, if_pos (by rw [hc]; rfl)] at hnil
          cases hnil
    have hblank : ∀ c ∈ (trimStart t).takeWhile (!isBlank ·), isBlank c = false := by
      intro c hc
      simpa using List.mem_takeWhile_imp hc
    have hbehind : ∀ c ∈ ((trimStart t).dropWhile (!isBlank ·)).head?, isBlank c = true := by
      intro c hc
      have hstop := List.head?_dropWhile_not (!isBlank ·) (trimStart t)
      rw [hc] at hstop
      simpa using hstop
    have hfirst := words_run hne hblank hbehind
    rw [← hword, ← words_gap hgap, ← hsplit, h] at hfirst
    rw [Option.some.inj hfirst]
    exact ⟨_, _, by rw [← hword]; exact hsplit, hgap, hne, hblank, hbehind⟩
  · rintro ⟨gap, behind, rfl, hgap, hne, hw, hbehind⟩
    rw [words_gap hgap]
    exact words_run hne hw hbehind

end LintFindings.Text
