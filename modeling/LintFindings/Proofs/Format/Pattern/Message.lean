/-
The message in the pattern of compilers.

The message is lazy, so it ends where a rule or the end of the line is behind it first; this
is in front of the blanks before a rule, if the message does not begin with one of them
(`fromMessage_begun`).  The runs of blanks in front of the parts are greedy, and all of the parts
behind them may be missing but for the message.  So where blanks are not taken whole, the message
begins with one, and there is such a message only if there is one behind the blanks, or nothing at
all (`Reads.blanks`).
-/
import LintFindings.Proofs.Format.Parts
import LintFindings.Proofs.Format.Pattern.Groups

namespace LintFindings.Gnu

open Regex

variable {g : List (Text × Text)} {w : Way} {t u v message rule gap : Text} {o : Option Text}
  {c opening close : Char} {x : Text → Option Text}

/-! ### The rule -/

/-- The characters of a rule. -/
def inRule : CharSet := .unions (.word :: "./@:=-".toList.map .single)

/-- The rule of a line. -/
def rulePart : List Regex :=
  [several .blank, .set (.unions [.single '(', .single '[']), named "rule" (several inRule),
    .set (.unions [.single ')', .single ']'])]

theorem mem_inRule : inRule.mem c = isRuleChar c := by
  simp [inRule, isRuleChar, Bool.beq_eq_decide_eq]

theorem mem_opening : (CharSet.unions [.single '(', .single '[']).mem c = true ↔
    c = '(' ∨ c = '[' := by
  simp

theorem mem_closing : (CharSet.unions [.single ')', .single ']']).mem c = true ↔
    c = ')' ∨ c = ']' := by
  simp

theorem isRuleChar_closing (hc : c = ')' ∨ c = ']') : isRuleChar c = false := by
  obtain rfl | rfl := hc <;> decide +kernel

/-- A rule is taken if it is all that is left. -/
theorem answer?_rulePart (hw : w.captured = held g) (hne : gap ≠ [])
    (hgap : ∀ c ∈ gap, isBlank c = true) (hopening : opening = '(' ∨ opening = '[')
    (hrule_ne : rule ≠ []) (hrule : ∀ c ∈ rule, isRuleChar c = true)
    (hclose : close = ')' ∨ close = ']')
    (h : w.rest = gap ++ opening :: (rule ++ [close])) :
    (seq rulePart).answer? atEnd w =
      some (held (took "rule" (some rule) ++ g)) := by
  have hopen : isBlank opening = false := by
    obtain rfl | rfl := hopening <;> rfl
  have hstop : ∀ c, CharSet.blank.mem c = true →
      (CharSet.unions [.single '(', .single '[']).mem c = false := by
    intro c hc
    refine eq_false_of_ne_true fun hmem => ?_
    obtain rfl | rfl := mem_opening.mp hmem <;> cases hc
  have hstop' : ∀ c, inRule.mem c = true →
      (CharSet.unions [.single ')', .single ']']).mem c = false := by
    intro c hc
    refine eq_false_of_ne_true fun hmem => ?_
    rw [mem_inRule, isRuleChar_closing (mem_closing.mp hmem)] at hc
    cases hc
  rw [rulePart, answer?_seq_cons, several,
    answer?_run_one_append (begins_seq_cons begins_set) hstop h hne hgap (Text.head?_cons_of hopen),
    answer?_seq_cons, answer?_set_cons rfl, if_pos (mem_opening.mpr hopening), answer?_seq_cons,
    named, answer?_group_some, several, answer?_run_one_append ?_ hstop' rfl hrule_ne
      (fun c hc => mem_inRule.trans (hrule c hc))
      (Text.head?_cons_of (mem_inRule.trans (isRuleChar_closing hclose))),
    answer?_seq_cons, answer?_set_cons rfl, if_pos (mem_closing.mpr hclose), answer?_seq_nil]
  · refine atEnd_nil ?_ rfl
    rw [Way.captured_past rfl, Way.captured_held _ rfl]
    rw [Way.captured_past rfl, Way.captured_past h, hw]
  · exact fun w hw => begins_seq_cons begins_set (w.leave _) hw

theorem exists_of_answer?_rulePart
    (h : (seq rulePart).answer? atEnd w = some x) :
    ∃ rule, RulePart (some rule) w.rest := by
  rw [rulePart, answer?_seq_cons] at h
  obtain ⟨gap, t, ht, hne, hgap, h⟩ := exists_of_answer?_run_one h
  rw [answer?_seq_cons] at h
  obtain ⟨opening, u, hu, hopening, h⟩ := exists_of_answer?_set h
  rw [answer?_seq_cons, named, answer?_group_some] at h
  obtain ⟨rule, v, hv, hrule_ne, hrule, h⟩ := exists_of_answer?_run_one h
  rw [answer?_seq_cons] at h
  obtain ⟨close, v', hv', hclose, h⟩ := exists_of_answer?_set h
  rw [answer?_seq_nil] at h
  rw [Way.rest_past] at hu
  rw [Way.rest_enter, Way.rest_past] at hv
  rw [Way.rest_leave, Way.rest_past] at hv'
  obtain rfl : v' = [] := rest_of_atEnd h
  refine ⟨rule, ?_⟩
  rw [ht, hu, hv, hv']
  exact .written hne hgap (mem_opening.mp hopening) hrule_ne (fun c hc => mem_inRule ▸ hrule c hc)
    (mem_closing.mp hclose)

/-- What is found behind the message: a rule, or nothing. -/
def fromRule : Finds := (maybe rulePart).answer? atEnd

theorem readsRule : ReadsRule fromRule RulePart where
  found := by
    intro g w o hw h
    rw [fromRule, answer?_maybe]
    generalize ht : w.rest = t at h
    cases h with
    | missing =>
        have hnone : (seq rulePart).answer? atEnd w = none := by
          rw [rulePart]
          exact begins_seq_cons begins_run_one w (by rw [ht]; exact nofun)
        rw [hnone, Option.none_or, atEnd_nil hw ht]
        rfl
    | written hne hgap hopening hrule_ne hrule hclose =>
        rw [answer?_rulePart hw hne hgap hopening hrule_ne hrule hclose ht, Option.some_or]
  sound := by
    intro w x h
    rw [fromRule, answer?_maybe] at h
    obtain h | ⟨-, h⟩ := Option.or_eq_some_iff.mp h
    · obtain ⟨rule, hrule⟩ := exists_of_answer?_rulePart h
      exact ⟨some rule, hrule⟩
    · refine ⟨none, ?_⟩
      rw [rest_of_atEnd h]
      exact .missing

/-! ### The message -/

/-- What is found from the message on. -/
def fromMessage : Finds := messagePart.answer? fromRule

/-- What the groups hold of what stands before the message. -/
def Front.taken (front : Front) : List (Text × Text) :=
  took "code" front.code ++ took "severity" front.severity

/-- What the groups hold of a message and what was found before and behind it. -/
def Body.taken (b : Body) : List (Text × Text) :=
  took "rule" b.rule ++ (took "message" (some b.message) ++ Front.taken ⟨b.severity, b.code⟩)

/-- A rule is cut off with all the blanks before it. -/
theorem ruled_of_rulePart (hbegin : ∀ c ∈ u.head?, isBlank c = false) (hne : u ≠ [])
    (h : RulePart (some rule) v) : Ruled (u ++ v) (Text.trimEnd u) rule := by
  obtain ⟨gap, hgap, hsplit⟩ := Text.exists_trimEnd u
  have htrim : Text.trimEnd u ≠ [] := by
    obtain ⟨c, u, rfl⟩ := List.ne_nil_iff_exists_cons.mp hne
    rw [ne_eq, Text.trimEnd_eq_nil_iff]
    intro hall
    cases (hall c List.mem_cons_self).symm.trans (hbegin c rfl)
  cases h with
  | @written gap' _ opening close hne' hgap' hopening hrule_ne hrule hclose =>
      refine ⟨htrim, Text.trimEnd_getLast u, hrule_ne, hrule, gap ++ gap', opening, close,
        List.append_ne_nil_of_right_ne_nil gap hne', ?_, hopening, hclose, ?_⟩
      · exact fun c hc => (List.mem_append.mp hc).elim (hgap c) (hgap' c)
      · conv => lhs; rw [hsplit]
        simp only [List.append_assoc]

theorem eq_nil_of_rulePart (h : RulePart none t) : t = [] := by
  cases h
  rfl

section

variable {front : Front} (hw : w.captured = held (front.taken ++ g))
  (hbegin : ∀ c ∈ w.rest.head?, isBlank c = false)

include hbegin

theorem head?_of_begun (h : w.rest = u ++ v) (hne : u ≠ []) : ∀ c ∈ u.head?, isBlank c = false := by
  obtain ⟨c, u, rfl⟩ := List.ne_nil_iff_exists_cons.mp hne
  rwa [h] at hbegin

/-- Wherever the rule of a line is read, the same message is in front of it. -/
theorem trimEnd_of_ruled (hruled : Ruled w.rest message rule) {rule' : Text} (h : w.rest = u ++ v)
    (hne : u ≠ []) (ho : RulePart (some rule') v) : Text.trimEnd u = message := by
  have hcut := cutRule?_of_ruled (ruled_of_rulePart (head?_of_begun hbegin h hne) hne ho)
  rw [← h, cutRule?_of_ruled hruled] at hcut
  exact (Prod.mk.inj (Option.some.inj hcut)).1.symm

include hw

theorem fromMessage_ruled (hruled : Ruled w.rest message rule) :
    fromMessage w = (message? front w.rest).map fun b => held (b.taken ++ g) := by
  obtain ⟨gap, opening, close, hgap_ne, hgap, hopening, hclose, heq⟩ := hruled.eq
  have ho := RulePart.written hgap_ne hgap hopening hruled.rule_ne hruled.rule_chars hclose
  rw [List.append_assoc] at heq
  by_cases hline : '\n' ∈ message
  · have hrefused : message? front w.rest = none := by
      rw [message?, cutRule?_of_ruled hruled]
      exact if_pos (Or.inr (by simpa using hline))
    rw [hrefused, Option.map_none]
    refine readsRule.message_eq_none hw fun u v o hrest hne ho => ?_
    cases o with
    | none =>
        obtain rfl := eq_nil_of_rulePart ho
        rw [List.append_nil] at hrest
        rw [← hrest, heq]
        exact List.mem_append_left _ hline
    | some rule' =>
        rw [← trimEnd_of_ruled hbegin hruled hrest hne ho] at hline
        exact (Text.trimEnd_prefix u).subset hline
  · rw [message?_of_ruled hruled hline, Option.map_some, fromMessage,
      readsRule.message_eq_some hw heq hruled.message_ne hline ho]
    · simp only [Body.taken, Front.taken, List.append_assoc]
    · intro a b o hab ha hb ho
      cases o with
      | none => exact hb (List.append_eq_nil_iff.mp (eq_nil_of_rulePart ho)).1
      | some rule' =>
          -- a rule further in front would leave a shorter message
          have htrim := trimEnd_of_ruled hbegin hruled (by rw [heq, hab, List.append_assoc]) ha ho
          have hlength := (Text.trimEnd_prefix a).length_le
          have hpos := List.length_pos_iff.mpr hb
          rw [htrim, hab, List.length_append] at hlength
          omega

theorem fromMessage_plain (hplain : ∀ message rule, ¬ Ruled w.rest message rule) :
    fromMessage w = (message? front w.rest).map fun b => held (b.taken ++ g) := by
  have hrule {u v rule : Text} (h : w.rest = u ++ v) (hne : u ≠ []) : ¬ RulePart (some rule) v := by
    intro ho
    refine hplain (Text.trimEnd u) rule ?_
    rw [h]
    exact ruled_of_rulePart (head?_of_begun hbegin h hne) hne ho
  by_cases hgood : w.rest ≠ [] ∧ '\n' ∉ w.rest
  · obtain ⟨hne, hline⟩ := hgood
    rw [message?_of_not_ruled hplain hne hline, Option.map_some, fromMessage,
      readsRule.message_eq_some hw (List.append_nil _).symm hne hline .missing]
    · simp only [Body.taken, Front.taken, List.append_assoc]
    · intro a b o hab ha hb ho
      rw [List.append_nil] at ho
      cases o with
      | none => exact hb (eq_nil_of_rulePart ho)
      | some rule => exact hrule hab ha ho
  · have hbad : w.rest = [] ∨ '\n' ∈ w.rest := by
      rwa [not_and_or, not_not, not_not] at hgood
    have hcut : cutRule? w.rest = none := by
      rw [Option.eq_none_iff_forall_not_mem]
      exact fun found h => hplain found.1 found.2 (ruled_of_cutRule? h)
    have hrefused : message? front w.rest = none := by
      rw [message?, hcut]
      exact if_pos (hbad.imp_right fun h => by simpa using h)
    rw [hrefused, Option.map_none]
    refine readsRule.message_eq_none hw fun u v o hrest hne ho => ?_
    cases o with
    | none =>
        obtain rfl := eq_nil_of_rulePart ho
        rw [List.append_nil] at hrest
        rw [← hrest] at hne ⊢
        exact hbad.resolve_left hne
    | some rule => exact absurd ho (hrule hrest hne)

/-- Where a message begins that does not begin with a blank, the reader finds it. -/
theorem fromMessage_begun :
    fromMessage w = (message? front w.rest).map fun b => held (b.taken ++ g) := by
  by_cases hruled : ∃ message rule, Ruled w.rest message rule
  · obtain ⟨message, rule, hruled⟩ := hruled
    exact fromMessage_ruled hw hbegin hruled
  · exact fromMessage_plain hw hbegin fun message rule h => hruled ⟨message, rule, h⟩

end

/-! ### Blanks before a part -/

/-- A rule behind blanks begins with its bracket and has no more blanks. -/
theorem forall_of_rulePart (hgap : ∀ c ∈ gap, isBlank c = true)
    (hbegin : ∀ c ∈ t.head?, isBlank c = false) (h : RulePart o (gap ++ t)) :
    ∀ c ∈ t, isBlank c = false := by
  generalize hu : gap ++ t = u at h
  cases h with
  | missing =>
      rw [(List.append_eq_nil_iff.mp hu).2]
      exact nofun
  | @written gap' rule opening close hne hgap' hopening hrule_ne hrule hclose =>
      have hopen : isBlank opening = false := by
        obtain rfl | rfl := hopening <;> rfl
      have heq := congrArg (List.dropWhile isBlank) hu
      rw [Text.dropWhile_run hgap hbegin, Text.dropWhile_run hgap' (Text.head?_cons_of hopen)] at heq
      rw [heq]
      simp only [List.forall_mem_cons, List.forall_mem_append]
      refine ⟨hopen, fun c hc => isBlank_of_isRuleChar (hrule c hc), ?_, nofun⟩
      obtain rfl | rfl := hclose <;> rfl

/-- There is no message of blanks in front of a text without one. -/
theorem fromMessage_behind_blanks {front : Front} (hw : w.captured = held (front.taken ++ g))
    (h : w.rest = gap ++ t) (hgap : ∀ c ∈ gap, isBlank c = true) (hne : t ≠ [])
    (hbegin : ∀ c ∈ t.head?, isBlank c = false) (hnone : message? front t = none) :
    fromMessage w = none := by
  have hbehind {u v : Text} {o : Option Text} (hsplit : t = u ++ v) (hne : u ≠ [])
      (ho : RulePart o v) : '\n' ∈ u := by
    by_contra hline
    have hw' : (w.past gap t).captured = held (front.taken ++ g) :=
      (Way.captured_past h).trans hw
    have hsome := (readsRule.isSome_message_iff hw').mpr ⟨u, v, o, hsplit, hne, hline, ho⟩
    have hrefused := fromMessage_begun hw' hbegin
    rw [Way.rest_past, hnone, Option.map_none, fromMessage] at hrefused
    rw [hrefused] at hsome
    cases hsome
  refine readsRule.message_eq_none hw fun u v o hsplit _ ho => by_contra fun hline => ?_
  rw [h] at hsplit
  have hrule {gap' : Text} (hgap' : ∀ c ∈ gap', isBlank c = true) : v ≠ gap' ++ t := by
    rintro rfl
    have hblank := forall_of_rulePart hgap' hbegin ho
    cases hblank _ (hbehind (List.append_nil t).symm hne .missing)
  obtain ⟨u', rfl, hu'⟩ | ⟨gap', rfl, hv⟩ := List.append_eq_append_iff.mp hsplit
  · by_cases hu : u' = []
    · subst hu
      exact hrule (List.forall_mem_nil _) hu'.symm
    · exact hline (List.mem_append_right _ (hbehind hu' hu ho))
  · exact hrule (fun c hc => hgap c (List.mem_append_right _ hc)) hv

/-- A message of nothing but blanks is all that is left. -/
theorem fromMessage_of_blanks (hw : w.captured = held g) (hall : ∀ c ∈ w.rest, isBlank c = true) :
    fromMessage w = if w.rest = [] ∨ '\n' ∈ w.rest then none
      else some (held (took "message" (some w.rest) ++ g)) := by
  have hnil {u v : Text} {o : Option Text} (h : w.rest = u ++ v) (ho : RulePart o v) :
      o = none := by
    cases ho with
    | missing => rfl
    | @written gap' rule opening close hne hgap' hopening hrule_ne hrule hclose =>
        have hblank := hall opening (by simp [h])
        obtain rfl | rfl := hopening <;> cases hblank
  split
  · rename_i hbad
    refine readsRule.message_eq_none hw fun u v o hrest hne ho => ?_
    obtain rfl := hnil hrest ho
    obtain rfl := eq_nil_of_rulePart ho
    rw [List.append_nil] at hrest
    rw [hrest] at hbad
    exact hbad.resolve_left hne
  · rename_i hgood
    obtain ⟨hne, hline⟩ := not_or.mp hgood
    rw [fromMessage, readsRule.message_eq_some hw (List.append_nil _).symm hne hline .missing]
    · rfl
    · intro a b o hab _ hb ho
      rw [List.append_nil] at ho
      obtain rfl := hnil hab ho
      exact hb (eq_nil_of_rulePart ho)

/-- A part of the pattern, with all that is behind it, finds what a reader of the format finds. -/
structure Reads (k : Finds) (next? : Text → Option Body)
    (front : Front) (g : List (Text × Text)) : Prop where
  /-- Where no blank is next, the groups hold what the reader takes. -/
  begun : ∀ w, w.captured = held (front.taken ++ g) → (∀ c ∈ w.rest.head?, isBlank c = false) →
    k w = (next? w.rest).map fun b => held (b.taken ++ g)
  /-- Where a blank is next, or nothing at all, only the message is left. -/
  blank : ∀ w, (∀ c ∈ w.rest.head?, isBlank c = true) → k w = fromMessage w
  /-- What is a message alone is taken in any case. -/
  plain : ∀ t, next? t = none → message? front t = none

theorem message?_singleton (front : Front) (hc : c ≠ '\n') :
    message? front [c] = some ⟨front.severity, front.code, none, [c]⟩ := by
  refine message?_of_not_ruled ?_ (List.cons_ne_nil c []) ?_
  · intro message rule h
    obtain ⟨gap, opening, close, -, -, -, -, heq⟩ := h.eq
    have hlength := congrArg List.length heq
    simp only [List.length_append, List.length_cons, List.length_nil] at hlength
    omega
  · simpa using Ne.symm hc

section

variable {k : Finds} {next? : Text → Option Body} {front : Front}
  (h : Reads k next? front g) (hw : w.captured = held (front.taken ++ g))

include h hw

/-- Where something is behind the blanks, they are taken whole. -/
theorem Reads.blanks_append (hrest : w.rest = gap ++ t) (hgap : ∀ c ∈ gap, isBlank c = true)
    (hne : t ≠ []) (hbegin : ∀ c ∈ t.head?, isBlank c = false) :
    (many .blank).answer? k w = (next? t).map fun b => held (b.taken ++ g) := by
  have hfound := h.begun (w.past gap t) ((Way.captured_past hrest).trans hw) hbegin
  rw [Way.rest_past] at hfound
  rw [← hfound]
  refine answer?_greedy hrest hgap ?_ ?_
  · intro a b hab ha hblank
    obtain ⟨c, a, rfl⟩ := List.ne_nil_iff_exists_cons.mp ha
    rw [hab] at hbegin
    cases (hblank c List.mem_cons_self).symm.trans (hbegin c rfl)
  · cases hnext : next? t with
    | some b =>
        rw [hfound, hnext]
        exact Or.inl rfl
    | none =>
        right
        intro a b hab hb
        obtain ⟨c, b, rfl⟩ := List.ne_nil_iff_exists_cons.mp hb
        subst hab
        have hgap' : ∀ d ∈ c :: b, isBlank d = true :=
          fun d hd => hgap d (List.mem_append_right a hd)
        rw [List.append_assoc] at hrest
        have hw' : (w.past a (c :: b ++ t)).captured = held (front.taken ++ g) :=
          (Way.captured_past hrest).trans hw
        rw [h.blank _ fun d hd => hgap' d (List.mem_of_mem_head? hd)]
        exact fromMessage_behind_blanks hw' rfl hgap' hne hbegin (h.plain t hnext)

/-- Where nothing is behind the blanks, the last of them is the message. -/
theorem Reads.blanks_concat (hrest : w.rest = gap ++ [c]) (hgap : ∀ d ∈ gap, isBlank d = true)
    (hc : isBlank c = true) : (many .blank).answer? k w =
      (if c = '\n' then none else message? front [c]).map fun b => held (b.taken ++ g) := by
  have hmessage {u v : Text} (hsplit : w.rest = u ++ v) (hv : ∀ d ∈ v, isBlank d = true) :
      k (w.past u v) = if v = [] ∨ '\n' ∈ v then none
        else some (held (took "message" (some v) ++ (front.taken ++ g))) := by
    have hw' := (Way.captured_past hsplit).trans hw
    rw [h.blank _ fun d hd => hv d (List.mem_of_mem_head? hd)]
    exact fromMessage_of_blanks hw' hv
  have hlast : k (w.past gap [c]) =
      (if c = '\n' then none else message? front [c]).map fun b => held (b.taken ++ g) := by
    rw [hmessage hrest (List.forall_mem_singleton.mpr hc)]
    by_cases hline : c = '\n'
    · rw [if_pos (Or.inr (hline ▸ List.mem_singleton_self c)), if_pos hline]
      rfl
    · rw [if_neg (by simpa using Ne.symm hline), if_neg hline, message?_singleton front hline]
      simp only [Option.map_some, Body.taken, Front.taken, took, Option.toList_none, List.map_nil,
        List.nil_append, List.append_assoc]
  rw [← hlast]
  refine answer?_greedy hrest hgap ?_ ?_
  · intro a b hab ha _
    obtain ⟨d, a, rfl⟩ := List.ne_nil_iff_exists_cons.mp ha
    obtain ⟨rfl, hnil⟩ := List.cons.inj hab
    obtain ⟨rfl, rfl⟩ := List.append_eq_nil_iff.mp hnil.symm
    rw [hmessage (by rw [hrest, List.append_nil]) (List.forall_mem_nil _), if_pos (Or.inl rfl)]
  · by_cases hline : c = '\n'
    · right
      intro a b hab hb
      subst hab
      rw [hmessage (by rw [hrest, List.append_assoc]), if_pos (Or.inr (by simp [hline]))]
      intro d hd
      obtain hd | hd := List.mem_append.mp hd
      · exact hgap d (List.mem_append_right a hd)
      · exact List.mem_singleton.mp hd ▸ hc
    · left
      rw [hlast, if_neg hline, message?_singleton front hline]
      rfl

/-- In front of such a part blanks are taken as the readers take them. -/
theorem Reads.blanks : (many .blank).answer? k w =
    (afterBlanks? front next? w.rest).map fun b => held (b.taken ++ g) := by
  have hgap : ∀ c ∈ w.rest.takeWhile isBlank, isBlank c = true := fun _ => List.mem_takeWhile_imp
  have hbegin : ∀ c ∈ (w.rest.dropWhile isBlank).head?, isBlank c = false :=
    Text.trimStart_head w.rest
  have hrest := (List.takeWhile_append_dropWhile (p := isBlank) (l := w.rest)).symm
  generalize w.rest.takeWhile isBlank = gap at hrest hgap
  generalize w.rest.dropWhile isBlank = t at hrest hbegin
  by_cases ht : t = []
  · rw [ht, List.append_nil] at hrest
    obtain rfl | ⟨gap, c, rfl⟩ := List.eq_nil_or_concat' gap
    · rw [many, answer?_run_nil true hrest, h.blank w (by rw [hrest]; exact nofun),
        fromMessage_of_blanks hw (by rw [hrest]; exact nofun), if_pos (Or.inl hrest), hrest]
      rfl
    · have hdrop : (gap ++ [c]).dropWhile isBlank = [] := List.dropWhile_eq_nil_iff.mpr hgap
      obtain ⟨hgap, hc⟩ := List.forall_mem_append.mp hgap
      rw [h.blanks_concat hw hrest hgap (hc c List.mem_cons_self), hrest, afterBlanks?, hdrop,
        List.getLast?_concat]
  · rw [h.blanks_append hw hrest hgap ht hbegin, hrest,
      afterBlanks?_append front next? ht hbegin hgap]

end

end LintFindings.Gnu
