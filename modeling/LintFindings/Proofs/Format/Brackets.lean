/-
Which brackets a trailing rule stands in.

A rule is taken off the end of a line in brackets of two kinds, and the kinds are not held
against each other.  What stands in front of the last bracket decides everything: each
reader takes the same part off two texts that differ in this bracket only (`Leaves`), and
what is made of them is the same, or has no rule in either (`Alike`).  So a rule that is taken
off a line would be taken off it with the other closing bracket, too
(`takesRule_brackets`), and a line in which the two are of different kinds loses its
end to the rule (`takesRule_mismatched`).
-/
import LintFindings.Proofs.Format.Parts

namespace LintFindings.Gnu

variable {α β : Type} {t s front : Text} {c c' d : Char}

/-! ### Texts that differ in their last bracket -/

/-- A reader that takes the same part off the front of two texts with different ends, and leaves
each its own end. -/
def Leaves (cut? : Text → Option (α × Text)) (s : Text) (c c' : Char) : Prop :=
  ∀ a u, cut? (s ++ [c]) = some (a, u) →
    ∃ v, u = v ++ [c] ∧ cut? (s ++ [c']) = some (a, v ++ [c'])

/-- Two results that are the same, or both have no rule. -/
inductive Alike (rule : α → Option Text) : Option α → Option α → Prop
  | same (x : Option α) : Alike rule x x
  | unruled {a a' : α} (h : rule a = none) (h' : rule a' = none) : Alike rule (some a) (some a')

namespace Alike

variable {rule : α → Option Text} {x y x' y' : Option α}

theorem or (h : Alike rule x y) (h' : Alike rule x' y') : Alike rule (x.or x') (y.or y') := by
  cases h with
  | same =>
      cases x with
      | none => exact h'
      | some a => exact same _
  | unruled ha ha' => exact unruled ha ha'

theorem map {rule' : β → Option Text} {g : α → β} (hg : ∀ a, rule' (g a) = rule a)
    (h : Alike rule x y) : Alike rule' (x.map g) (y.map g) := by
  cases h with
  | same => exact same _
  | unruled ha ha' => exact unruled ((hg _).trans ha) ((hg _).trans ha')

theorem bind {cut? : Text → Option (β × Text)} (next? : β → Text → Option α)
    (h : Leaves cut? s c c') (h' : Leaves cut? s c' c)
    (hnext : ∀ b v, Alike rule (next? b (v ++ [c])) (next? b (v ++ [c']))) :
    Alike rule ((cut? (s ++ [c])).bind fun (b, u) => next? b u)
      ((cut? (s ++ [c'])).bind fun (b, u) => next? b u) := by
  cases hcut : cut? (s ++ [c]) with
  | some found =>
      obtain ⟨b, u⟩ := found
      obtain ⟨v, rfl, hcut'⟩ := h b u hcut
      rw [hcut']
      exact hnext b v
  | none =>
      have hcut' : cut? (s ++ [c']) = none := by
        rw [Option.eq_none_iff_forall_not_mem]
        rintro ⟨b, u⟩ hu
        obtain ⟨v, -, hsome⟩ := h' b u hu
        rw [hcut] at hsome
        cases hsome
      rw [hcut']
      exact same _

theorem eq_of_ruled {a : α} {r : Text} (h : Alike rule (some a) y) (hr : rule a = some r) :
    y = some a := by
  cases h with
  | same => rfl
  | unruled ha => rw [ha] at hr; cases hr

end Alike

/-- What is left behind another sign than the last one has the last one at its end. -/
theorem exists_of_concat {u : Text} (h : s ++ [c] = front ++ d :: u) (hne : c ≠ d) :
    ∃ v, u = v ++ [c] ∧ s = front ++ d :: v := by
  obtain rfl | ⟨v, e, rfl⟩ := List.eq_nil_or_concat' u
  · exact absurd (List.cons.inj (List.append_inj' h rfl).2).1 hne
  · rw [← List.cons_append, ← List.append_assoc] at h
    obtain ⟨hs, hlast⟩ := List.append_inj' h rfl
    obtain rfl : c = e := (List.cons.inj hlast).1
    exact ⟨v, rfl, hs⟩

/-! ### What the readers leave -/

section

variable (hc : c = ')' ∨ c = ']') (hc' : c' = ')' ∨ c' = ']')

theorem isBlank_of_closing (hc : c = ')' ∨ c = ']') : isBlank c = false := by
  obtain rfl | rfl := hc <;> rfl

theorem ne_colon_of_closing (hc : c = ')' ∨ c = ']') : c ≠ ':' := by
  obtain rfl | rfl := hc <;> decide

theorem ne_of_isBlank (hc : c = ')' ∨ c = ']') (hd : isBlank d = true) : c ≠ d := by
  rintro rfl
  rw [isBlank_of_closing hc] at hd
  cases hd

include hc

theorem leaves_column? (s : Text) : Leaves (fun t => column? (':' :: t)) s c c' := by
  intro column u h
  obtain ⟨hcolumn, heq⟩ := column?_eq_some_iff.mp h
  obtain ⟨v, rfl, rfl⟩ := exists_of_concat (List.cons.inj heq).2 (ne_colon_of_closing hc)
  exact ⟨v, rfl, column?_eq_some_iff.mpr ⟨hcolumn, by simp⟩⟩

theorem leaves_severity? (s : Text) : Leaves severity? s c c' := by
  intro word u h
  have hsevere := severe_of_severity? h
  obtain ⟨gap, hgap, heq⟩ := hsevere.eq
  obtain ⟨v, rfl, rfl⟩ := exists_of_concat heq (ne_colon_of_closing hc)
  exact ⟨v, rfl, severity?_of_severe ⟨hsevere.known, hsevere.chars, gap, hgap, by simp⟩⟩

theorem leaves_code? (s : Text) : Leaves code? s c c' := by
  intro code u h
  obtain ⟨hcode, colon, d, hcolon, hd, heq⟩ := code?_eq_some_iff.mp h
  obtain ⟨v, rfl, rfl⟩ := exists_of_concat heq (ne_of_isBlank hc hd)
  exact ⟨v, rfl, code?_eq_some_iff.mpr ⟨hcode, colon, d, hcolon, hd, by simp⟩⟩

theorem leaves_afterMark? (s : Text) :
    Leaves (fun t => (afterMark? t).map (Prod.mk ())) s c c' := by
  intro _ u h
  obtain ⟨u, hu, hpair⟩ := Option.map_eq_some_iff.mp h
  cases hpair
  obtain ⟨d, hd, heq⟩ := afterMark?_eq_some_iff.mp hu
  obtain ⟨v, rfl, rfl⟩ := exists_of_concat heq (ne_of_isBlank hc hd)
  refine ⟨v, rfl, Option.map_eq_some_iff.mpr ⟨v ++ [c'], ?_, rfl⟩⟩
  exact afterMark?_eq_some_iff.mpr ⟨d, hd, by simp⟩

/-! ### What is made of two such texts -/

include hc'

/-- A rule is found by what is between the brackets. -/
theorem cutRule?_concat (s : Text) : cutRule? (s ++ [c]) = cutRule? (s ++ [c']) := by
  rw [cutRule?, cutRule?, List.reverse_concat, List.reverse_concat]
  dsimp only
  rw [if_pos hc, if_pos hc']

theorem alike_message? (front : Front) (s : Text) :
    Alike Body.rule (message? front (s ++ [c])) (message? front (s ++ [c'])) := by
  have hnewline {d : Char} (hd : d = ')' ∨ d = ']') :
      (s ++ [d] = [] ∨ (s ++ [d]).contains '\n' = true) ↔ '\n' ∈ s := by
    obtain rfl | rfl := hd <;> simp
  rw [message?, message?, cutRule?_concat hc hc']
  cases cutRule? (s ++ [c']) with
  | some parts => exact Alike.same _
  | none =>
      dsimp only
      by_cases hline : '\n' ∈ s
      · rw [if_pos ((hnewline hc).mpr hline), if_pos ((hnewline hc').mpr hline)]
        exact Alike.same _
      · rw [if_neg fun h => hline ((hnewline hc).mp h), if_neg fun h => hline ((hnewline hc').mp h)]
        exact Alike.unruled rfl rfl

theorem alike_afterBlanks? (front : Front) {next? : Text → Option Body}
    (hnext : ∀ v, Alike Body.rule (next? (v ++ [c])) (next? (v ++ [c']))) (s : Text) :
    Alike Body.rule (afterBlanks? front next? (s ++ [c]))
      (afterBlanks? front next? (s ++ [c'])) := by
  have hblanks {d : Char} (hd : d = ')' ∨ d = ']') :
      afterBlanks? front next? (s ++ [d]) = next? (s.dropWhile isBlank ++ [d]) := by
    have hhead : ∀ e ∈ (s.dropWhile isBlank ++ [d]).head?, isBlank e = false :=
      Text.head?_append_of (Text.trimStart_head s) (Text.head?_cons_of (isBlank_of_closing hd))
    rw [← afterBlanks?_append front next? (List.concat_ne_nil _ _) hhead
      (fun _ => List.mem_takeWhile_imp (l := s)), ← List.append_assoc,
      List.takeWhile_append_dropWhile]
  rw [hblanks hc, hblanks hc']
  exact hnext _

theorem alike_marked? (front : Front) (s : Text) :
    Alike Body.rule (marked? front (s ++ [c])) (marked? front (s ++ [c'])) := by
  refine Alike.or ?_ (alike_message? hc hc' front s)
  have h := Alike.bind (fun _ => afterBlanks? front (message? front))
    (leaves_afterMark? hc s) (leaves_afterMark? hc' s)
    fun _ => alike_afterBlanks? hc hc' front (alike_message? hc hc' front)
  rw [Option.bind_map, Option.bind_map] at h
  exact h

theorem alike_coded? (severity : Option Text) (s : Text) :
    Alike Body.rule (coded? severity (s ++ [c])) (coded? severity (s ++ [c'])) :=
  Alike.or
    (Alike.bind (fun code => afterBlanks? ⟨severity, some code⟩ (marked? ⟨severity, some code⟩))
      (leaves_code? hc s) (leaves_code? hc' s) fun _ =>
        alike_afterBlanks? hc hc' _ (alike_marked? hc hc' _))
    (alike_message? hc hc' _ s)

theorem alike_body? (s : Text) : Alike Body.rule (body? (s ++ [c])) (body? (s ++ [c'])) :=
  Alike.or
    (Alike.bind (fun severity => afterBlanks? ⟨some severity, none⟩ (coded? (some severity)))
      (leaves_severity? hc s) (leaves_severity? hc' s) fun _ =>
        alike_afterBlanks? hc hc' _ (alike_coded? hc hc' _))
    (alike_coded? hc hc' _ s)

theorem alike_rest? (s : Text) : Alike Body.rule (rest? (s ++ [c])) (rest? (s ++ [c'])) :=
  alike_afterBlanks? hc hc' _ (alike_body? hc hc') s

/-- The pieces of a line that a rule is taken off do not change with its last bracket. -/
theorem pieces?_concat {p : Located} {rule : Text} (h : pieces? (s ++ [c]) = some p)
    (hrule : p.rule = some rule) : pieces? (s ++ [c']) = some p := by
  obtain ⟨file, line, w, hfile, hline, hw⟩ := exists_colon_of_pieces? h
  rw [← List.cons_append, ← List.append_assoc] at hw
  obtain ⟨v, rfl, rfl⟩ := exists_of_concat hw (ne_colon_of_closing hc)
  have hsplit (d : Char) : file ++ ':' :: line ++ ':' :: v ++ [d] =
      file ++ ':' :: (line ++ ':' :: (v ++ [d])) := by simp
  have halike : Alike Located.rule (pieces? (file ++ ':' :: line ++ ':' :: v ++ [c]))
      (pieces? (file ++ ':' :: line ++ ':' :: v ++ [c'])) := by
    rw [hsplit c, hsplit c', pieces?_location hfile hline, pieces?_location hfile hline]
    refine Alike.or ?_ ((alike_rest? hc hc' v).map fun _ => rfl)
    exact Alike.bind (fun column u => (rest? u).map (located file line (some column)))
      (leaves_column? hc v) (leaves_column? hc' v) fun _ w =>
        (alike_rest? hc hc' w).map fun _ => rfl
  rw [h] at halike
  exact halike.eq_of_ruled hrule

end

/-! ### The brackets of a rule -/

/-- A line from whose end a rule is taken. -/
def TakesRule (t : Text) (m : LineMatch) (rule : Text) : Prop :=
  ∃ p, pieces? t = some p ∧ p.lineMatch? = some m ∧ p.rule = some rule

/-- **A trailing rule stands in brackets of any two kinds.**  It is taken off a line with one
closing bracket as it is with the other, whatever the opening one is. -/
theorem takesRule_brackets {m : LineMatch} {rule : Text} (h : TakesRule t m rule) :
    matcher.matchLine? t = some m ∧ m.rule = some rule ∧
    ∃ front opening close, (opening = '(' ∨ opening = '[') ∧ (close = ')' ∨ close = ']') ∧
      t = front ++ opening :: (rule ++ [close]) ∧
      ∀ close', close' = ')' ∨ close' = ']' →
        TakesRule (front ++ opening :: (rule ++ [close'])) m rule := by
  obtain ⟨p, hpieces, hmatch, hrule⟩ := h
  obtain ⟨gap, severity, code, part, -, -, -, hpart, heq⟩ := (pieced_of_pieces? hpieces).eq
  have hmrule : m.rule = some rule := by
    rw [(Located.lineMatch?_eq_some_iff.mp hmatch).rule, hpart.bind_trimmed?, hrule, Option.some_or]
  refine ⟨Option.bind_eq_some_iff.mpr ⟨p, hpieces, hmatch⟩, hmrule, ?_⟩
  rw [hrule] at hpart
  cases hpart with
  | @written gap' _ opening close _ _ hopening _ _ hclose =>
      refine ⟨p.file ++ ':' :: (p.line ++ p.column.elim [] (':' :: ·) ++
        ':' :: (gap ++ severity ++ code ++ p.message ++ gap')), opening, close, hopening, hclose,
        by rw [heq]; simp, fun close' hclose' => ⟨p, ?_, hmatch, hrule⟩⟩
      have hconcat : pieces? (p.file ++ ':' :: (p.line ++ p.column.elim [] (':' :: ·) ++
          ':' :: (gap ++ severity ++ code ++ p.message ++ gap')) ++ opening :: rule ++ [close]) =
          some p := by
        rw [← hpieces, heq]
        simp
      have hother := pieces?_concat hclose hclose' hconcat hrule
      rwa [List.append_assoc, List.cons_append] at hother

/-- The match of a message with a rule behind it. -/
def ruledMatch : LineMatch :=
  { file := "a.c".toList, line := some 1, column := none, endLine := none, endColumn := none
    severity := none, rule := some "r".toList, helpUri := none, message := "msg".toList }

theorem takesRule_square : TakesRule "a.c:1: msg [r]".toList ruledMatch "r".toList ∧
    ∃ front opening close, (opening = '(' ∨ opening = '[') ∧ (close = ')' ∨ close = ']') ∧
      "a.c:1: msg [r]".toList = front ++ opening :: ("r".toList ++ [close]) ∧
      ∀ close', close' = ')' ∨ close' = ']' →
        TakesRule (front ++ opening :: ("r".toList ++ [close'])) ruledMatch "r".toList := by
  have h : TakesRule "a.c:1: msg [r]".toList ruledMatch "r".toList :=
    ⟨⟨"a.c".toList, "1".toList, none, none, none, some "r".toList, "msg".toList⟩,
      by decide +kernel, by decide +kernel, rfl⟩
  exact ⟨h, (takesRule_brackets h).2.2⟩

/-- A rule is taken off a line that ends in brackets of different kinds. -/
theorem takesRule_mismatched : TakesRule "a.c:1: msg (r]".toList ruledMatch "r".toList ∧
    matcher.matchLine? "a.c:1: msg (r]".toList = some ruledMatch ∧
    ¬ "(r)".toList <:+ "a.c:1: msg (r]".toList ∧ ¬ "[r]".toList <:+ "a.c:1: msg (r]".toList := by
  refine ⟨⟨⟨"a.c".toList, "1".toList, none, none, none, some "r".toList, "msg".toList⟩,
    by decide +kernel, by decide +kernel, rfl⟩, by decide +kernel, by decide, by decide⟩

end LintFindings.Gnu
