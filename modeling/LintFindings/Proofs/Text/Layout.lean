/-
What the solid lines of a text leave open.

Two texts have the same solid lines just if they differ in their layout, and layout is
where blanks stand at the edge of a line.  `Edit` puts one blank there or takes it away, in
front of what a line says or behind it.  As line feeds and carriage returns are blanks, this is
indentation and trailing blanks, but also the carriage return of a line ending, a blank line and
the line feed at the end of a text; a blank between two words of a line is none of it.

An edit changes no solid line, and so no row of edits does.  For the other direction every text
is brought to one form that its solid lines alone determine, each line trimmed and with a
line feed behind it (`relaid_plainLayout`); two texts with the same lines meet there.
-/
import LintFindings.Proofs.Text.Lines
import Mathlib.Logic.Relation

namespace LintFindings.Text

variable {s t u front back : Text} {c : Char}

/-! ### Edits -/

/-- Nothing stands on the line that begins behind a text. -/
def AtLineStart (front : Text) : Prop := ∀ c ∈ front.getLast?, c = '\n'

/-- Nothing more stands on the line that ends in front of a text. -/
def AtLineEnd (back : Text) : Prop := ∀ c ∈ back.head?, c = '\n'

/-- A blank is taken away at the edge of a line. -/
inductive Edit : Text → Text → Prop
  | first {front back : Text} {c : Char} (hfront : AtLineStart front) (hc : isBlank c = true) :
      Edit (front ++ c :: back) (front ++ back)
  | last {front back : Text} {c : Char} (hback : AtLineEnd back) (hc : isBlank c = true) :
      Edit (front ++ c :: back) (front ++ back)

/-- The texts that a text becomes when blanks are put in and taken away at the edges of lines. -/
def Relaid : Text → Text → Prop := Relation.EqvGen Edit

theorem Relaid.refl (t : Text) : Relaid t t := Relation.EqvGen.refl t

theorem Relaid.symm (h : Relaid s t) : Relaid t s := Relation.EqvGen.symm s t h

theorem Relaid.trans (h : Relaid s t) (h' : Relaid t u) : Relaid s u :=
  Relation.EqvGen.trans s t u h h'

theorem Edit.relaid (h : Edit s t) : Relaid s t := Relation.EqvGen.rel s t h

theorem atLineStart_nil : AtLineStart [] := by
  intro c hc
  cases hc

theorem atLineStart_concat (t : Text) : AtLineStart (t ++ ['\n']) := by
  intro c hc
  rw [List.getLast?_concat] at hc
  exact (Option.some.inj hc).symm

theorem AtLineStart.append (h : AtLineStart s) (h' : AtLineStart t) : AtLineStart (s ++ t) := by
  intro c hc
  rw [List.getLast?_append] at hc
  cases ht : t.getLast? with
  | none =>
      rw [ht] at hc
      exact h c hc
  | some d =>
      rw [ht] at hc
      exact h' c (ht.trans hc)

/-! ### Edits change no line -/

theorem AtLineStart.solidLines_append (h : AtLineStart front) (t : Text) :
    solidLines (front ++ t) = solidLines front ++ solidLines t := by
  rcases List.eq_nil_or_concat' front with rfl | ⟨lines, c, rfl⟩
  · rfl
  · obtain rfl : c = '\n' := h c List.getLast?_concat
    rw [List.append_assoc, solidLines_append_newline, List.singleton_append,
      solidLines_append_newline, solidLines_nil, List.append_nil]

theorem Edit.solidLines_eq (h : Edit s t) : solidLines s = solidLines t := by
  cases h with
  | @first front back c hfront hc =>
      rw [hfront.solidLines_append, hfront.solidLines_append, solidLines_cons_of_isBlank hc]
  | @last front back c hback hc =>
      cases back with
      | nil => rw [solidLines_append_of_isBlank hc, List.append_nil]
      | cons d back =>
          obtain rfl : d = '\n' := hback d rfl
          rw [List.append_cons, solidLines_append_newline, solidLines_append_newline,
            solidLines_append_of_isBlank hc]

theorem Relaid.solidLines_eq (h : Relaid s t) : solidLines s = solidLines t := by
  induction h with
  | rel s t hedit => exact hedit.solidLines_eq
  | refl t => rfl
  | symm s t _ ih => exact ih.symm
  | trans s t u _ _ ih ih' => exact ih.trans ih'

/-! ### The plain layout -/

/-- Each line with a line feed behind it. -/
def plainLayout (lines : List Text) : Text := lines.flatMap (· ++ ['\n'])

/-- Whole lines in front of a text do not stand in the way of its edits. -/
theorem Relaid.append_left (h : Relaid s t) (hfront : AtLineStart front) :
    Relaid (front ++ s) (front ++ t) := by
  induction h with
  | rel s t hedit =>
      apply Edit.relaid
      cases hedit with
      | @first before back c hbefore hc =>
          rw [← List.append_assoc, ← List.append_assoc]
          exact Edit.first (hfront.append hbefore) hc
      | @last before back c hback hc =>
          rw [← List.append_assoc, ← List.append_assoc]
          exact Edit.last hback hc
  | refl t => exact Relaid.refl _
  | symm s t _ ih => exact ih.symm
  | trans s t u _ _ ih ih' => exact ih.trans ih'

theorem relaid_trimStart (t back : Text) : Relaid (t ++ back) (trimStart t ++ back) := by
  induction t with
  | nil => exact Relaid.refl back
  | cons c t ih =>
      by_cases hc : isBlank c = true
      · have hedit : Edit (c :: (t ++ back)) (t ++ back) := Edit.first atLineStart_nil hc
        rw [trimStart, List.dropWhile_cons_of_pos hc]
        exact hedit.relaid.trans ih
      · rw [trimStart, List.dropWhile_cons_of_neg hc]
        exact Relaid.refl _

theorem relaid_trimEnd (t : Text) (hback : AtLineEnd back) :
    Relaid (t ++ back) (trimEnd t ++ back) := by
  induction t using List.reverseRecOn with
  | nil => exact Relaid.refl back
  | append_singleton t c ih =>
      by_cases hc : isBlank c = true
      · have hedit : Edit (t ++ c :: back) (t ++ back) := Edit.last hback hc
        rw [trimEnd_append_of_isBlank hc, List.append_assoc, List.singleton_append]
        exact hedit.relaid.trans ih
      · have hlast : trimEnd (t ++ [c]) = t ++ [c] := by
          simp [trimEnd, hc]
        rw [hlast]
        exact Relaid.refl _

theorem relaid_trim (t : Text) (hback : AtLineEnd back) :
    Relaid (t ++ back) (trim t ++ back) :=
  (relaid_trimStart t back).trans (relaid_trimEnd (trimStart t) hback)

/-- A line is trimmed where it stands, and disappears if it is blank. -/
theorem relaid_line (line back : Text) :
    Relaid (line ++ '\n' :: back) (plainLayout (trimmed? line).toList ++ back) := by
  have hend : AtLineEnd ('\n' :: back) := by
    intro c hc
    exact (Option.some.inj hc).symm
  have htrim := relaid_trim line hend
  cases hline : trimmed? line with
  | none =>
      have hedit : Edit ('\n' :: back) back := Edit.first atLineStart_nil (by decide)
      rw [trimmed?_eq_none_iff.mp hline] at htrim
      exact htrim.trans hedit.relaid
  | some said =>
      obtain ⟨rfl, -⟩ := trimmed?_eq_some_iff.mp hline
      simpa [plainLayout] using htrim

theorem atLineStart_plainLayout (lines : List Text) : AtLineStart (plainLayout lines) := by
  rcases List.eq_nil_or_concat' lines with rfl | ⟨lines, line, rfl⟩
  · exact atLineStart_nil
  · rw [plainLayout, List.flatMap_append, List.flatMap_singleton, ← List.append_assoc]
    exact atLineStart_concat _

theorem plainLayout_append (ls ls' : List Text) :
    plainLayout (ls ++ ls') = plainLayout ls ++ plainLayout ls' := List.flatMap_append

/-- Every text is brought to the plain layout of its lines.  The lines are taken off the front one
by one, and the last one is given the line feed that it may lack. -/
theorem relaid_plainLayout (t : Text) : Relaid t (plainLayout (solidLines t)) := by
  induction hn : t.length using Nat.strongRecOn generalizing t with
  | ind n ih =>
      by_cases hmem : '\n' ∈ t
      · obtain ⟨line, back, rfl, hline⟩ := List.eq_append_cons_of_mem hmem
        have hlength : back.length < n := by
          rw [← hn, List.length_append, List.length_cons]
          omega
        have hback := (ih _ hlength back rfl).append_left
          (atLineStart_plainLayout (trimmed? line).toList)
        rw [solidLines_append_newline, solidLines_of_notMem hline, plainLayout_append]
        exact (relaid_line line back).trans hback
      · have hend : AtLineEnd [] := by
          intro c hc
          cases hc
        have hedit : Edit (t ++ ['\n']) (t ++ []) := Edit.last hend (by decide)
        have hline := relaid_line t []
        rw [List.append_nil] at hedit hline
        rw [solidLines_of_notMem hmem]
        exact hedit.relaid.symm.trans hline

/-- **Texts with the same solid lines differ in their layout only**, and layout is on no solid
line. -/
theorem relaid_iff : Relaid s t ↔ solidLines s = solidLines t := by
  constructor
  · exact Relaid.solidLines_eq
  · intro h
    have ht := relaid_plainLayout t
    rw [← h] at ht
    exact (relaid_plainLayout s).trans ht.symm

end LintFindings.Text
