/-
What a line of the compact format is.

The reader takes a file, two numbers and a severity off the front of a line, and each of them
ends where the sign behind it begins.  What is left is a message, unless it is `Ruled`: then it
ends in a rule.  As a rule has no parentheses of its own, a text is ruled in at most one way,
so cutting the rule off from behind (`cutRule?_eq_some_iff`) is the same as taking the
shortest message that leaves a rule or nothing behind it.

`Parts` are what a line is written from, and the reader finds in a line just the parts that make
it (`pieces?_eq_some_iff`).  A match asks for a little more, ASCII digits and a message
that is not blank, and that is all: `matchLine?_eq_some_iff` puts the two together.
-/
import LintFindings.Format.Compact
import LintFindings.Proofs.Format.Located

namespace LintFindings.Compact

variable {t message rule : Text} {m : LineMatch} {c : Char}

/-! ### The rule -/

/-- A text ends in a rule in parentheses, with one space and a message before it. -/
structure Ruled (t message rule : Text) : Prop where
  message_ne : message ≠ []
  rule_ne : rule ≠ []
  rule_chars : ∀ c ∈ rule, c ≠ '(' ∧ c ≠ ')' ∧ isBlank c = false
  eq : t = message ++ " (".toList ++ rule ++ ")".toList

theorem isRuleChar_iff : isRuleChar c = true ↔ c ≠ '(' ∧ c ≠ ')' ∧ isBlank c = false := by
  simp [isRuleChar, and_assoc]

theorem cutRule?_of_ruled (h : Ruled t message rule) : cutRule? t = some (message, rule) := by
  have hback : t.reverse = ')' :: (rule.reverse ++ '(' :: ' ' :: message.reverse) := by
    rw [h.eq]
    simp
  have hrule : ∀ c ∈ rule.reverse, isRuleChar c = true := by
    intro c hc
    exact isRuleChar_iff.mpr (h.rule_chars c (List.mem_reverse.mp hc))
  have hstop : ∀ c ∈ ('(' :: ' ' :: message.reverse).head?, isRuleChar c = false :=
    Text.head?_cons_of rfl
  obtain ⟨r, rs, hr⟩ := List.ne_nil_iff_exists_cons.mp
    (mt List.reverse_eq_nil_iff.mp h.rule_ne)
  obtain ⟨d, front, hmessage⟩ := List.ne_nil_iff_exists_cons.mp
    (mt List.reverse_eq_nil_iff.mp h.message_ne)
  have htake := Text.takeWhile_run hrule hstop
  have hdrop := Text.dropWhile_run hrule hstop
  rw [hmessage, hr] at htake hdrop
  rw [hmessage, hr] at hback
  simp only [cutRule?, hback, htake, hdrop]
  rw [← hmessage, ← hr, List.reverse_reverse, List.reverse_reverse]

theorem ruled_of_cutRule? (h : cutRule? t = some (message, rule)) : Ruled t message rule := by
  unfold cutRule? at h
  split at h
  · rename_i back hback
    split at h
    · rename_i r rs d front hrule hfront
      obtain ⟨rfl, rfl⟩ := Prod.mk.inj (Option.some.inj h)
      have hsplit : back = back.takeWhile isRuleChar ++ '(' :: ' ' :: d :: front := by
        rw [← hfront, List.takeWhile_append_dropWhile]
      refine ⟨by simp, by simp [hrule], ?_, ?_⟩
      · intro c hc
        exact isRuleChar_iff.mp (List.mem_takeWhile_imp (List.mem_reverse.mp hc))
      · have hreverse := congrArg List.reverse hsplit
        rw [← List.reverse_reverse t, hback, List.reverse_cons, hreverse]
        simp
    · cases h
  · cases h

/-- **A text is ruled in at most one way**, the one that the reader finds. -/
theorem cutRule?_eq_some_iff : cutRule? t = some (message, rule) ↔ Ruled t message rule :=
  ⟨ruled_of_cutRule?, cutRule?_of_ruled⟩

/-- What a text says and the rule behind it.  A rule is told apart wherever there is one. -/
inductive Ends (t : Text) : Text → Option Text → Prop
  | ruled {message rule : Text} (h : Ruled t message rule) : Ends t message (some rule)
  | plain (h : ∀ message rule, ¬ Ruled t message rule) : Ends t t none

theorem Ends.text_ne {rule : Option Text} (h : Ends t message rule) (hne : message ≠ []) :
    t ≠ [] := by
  cases h with
  | ruled h =>
      rw [h.eq]
      simp
  | plain h => exact hne

theorem message?_eq_some_iff {rule : Option Text} : message? t = some (message, rule) ↔
    Ends t message rule ∧ message ≠ [] ∧ '\n' ∉ message := by
  unfold message?
  cases hcut : cutRule? t with
  | some found =>
      obtain ⟨message', rule'⟩ := found
      have hruled := cutRule?_eq_some_iff.mp hcut
      constructor
      · intro h
        simp only [Option.ite_none_left_eq_some, Option.some.injEq, Prod.mk.injEq] at h
        obtain ⟨hgood, rfl, rfl⟩ := h
        exact ⟨Ends.ruled hruled, by simpa using hgood⟩
      · rintro ⟨hends, hne, hline⟩
        cases hends with
        | ruled h =>
            obtain ⟨rfl, rfl⟩ := Prod.mk.inj
              (Option.some.inj (hcut.symm.trans (cutRule?_of_ruled h)))
            simp [hne, hline]
        | plain h => exact absurd hruled (h message' rule')
  | none =>
      have hplain : ∀ message rule, ¬ Ruled t message rule := by
        intro message rule h
        rw [cutRule?_of_ruled h] at hcut
        cases hcut
      constructor
      · intro h
        simp only [Option.ite_none_left_eq_some, Option.some.injEq, Prod.mk.injEq] at h
        obtain ⟨hgood, rfl, rfl⟩ := h
        exact ⟨Ends.plain hplain, by simpa using hgood⟩
      · rintro ⟨hends, hne, hline⟩
        cases hends with
        | ruled h => exact absurd h (hplain _ _)
        | plain h => simp [hne, hline]

/-! ### The parts of a line -/

/-- What a line is written from.  The text is the message with the rule, if there is one. -/
structure Parts where
  file : Text
  line : Text
  column : Text
  severity : Text
  text : Text
  deriving DecidableEq, Repr

namespace Parts

/-- The line that the parts make. -/
def write (p : Parts) : Text :=
  p.file ++ ": line ".toList ++ p.line ++ ", col ".toList ++ p.column ++ ", ".toList ++
    p.severity ++ " - ".toList ++ p.text

/-- No part is missing, and each ends where the sign behind it begins. -/
structure Sound (p : Parts) : Prop where
  file_ne : p.file ≠ []
  file_chars : ':' ∉ p.file
  severity_ne : p.severity ≠ []
  severity_chars : ∀ c ∈ p.severity, Unicode.isWordChar c = true
  text_ne : p.text ≠ []

/-- The pieces that are made of the parts once the text is a message and a rule. -/
def located (p : Parts) (message : Text) (rule : Option Text) : Located :=
  { file := p.file, line := p.line, column := some p.column, severity := some p.severity
    code := none, rule, message }

/-- The match that is made of the parts once the numbers are read. -/
def lineMatch (p : Parts) (line column : UInt32) (message : Text) (rule : Option Text) :
    LineMatch :=
  { file := Text.trim p.file, line := some line, column := some column, endLine := none
    endColumn := none, severity := some p.severity, rule, helpUri := none
    message := Text.trim message }

end Parts

theorem pieces?_write {p : Parts} {rule : Option Text} (h : p.Sound)
    (hline : Text.DigitRun p.line) (hcolumn : Text.DigitRun p.column)
    (hmessage : message? p.text = some (message, rule)) :
    pieces? p.write = some (p.located message rule) := by
  have hfile : ∀ c ∈ p.file, (c != ':') = true := by
    intro c hc
    rw [bne_iff_ne]
    rintro rfl
    exact h.file_chars hc
  have hcolon (u : Text) : ∀ c ∈ (": line ".toList ++ u).head?, (c != ':') = false :=
    Text.head?_cons_of rfl
  have hcomma (u : Text) : Text.digitRun? (p.line ++ (", col ".toList ++ u)) =
      some (p.line, ", col ".toList ++ u) :=
    Text.digitRun?_eq_some_iff.mpr ⟨hline, rfl, Text.head?_cons_of rfl⟩
  have hcomma' (u : Text) : Text.digitRun? (p.column ++ (", ".toList ++ u)) =
      some (p.column, ", ".toList ++ u) :=
    Text.digitRun?_eq_some_iff.mpr ⟨hcolumn, rfl, Text.head?_cons_of rfl⟩
  have hblank : ∀ c ∈ (" - ".toList ++ p.text).head?, Unicode.isWordChar c = false :=
    Text.head?_cons_of rfl
  have hafter (start u : Text) : Text.after? start (start ++ u) = some u :=
    Text.after?_eq_some_iff.mpr rfl
  simp only [Parts.write, List.append_assoc]
  unfold pieces?
  rw [Text.takeWhile_run hfile (hcolon _), Text.dropWhile_run hfile (hcolon _)]
  simp only [if_neg h.file_ne, hafter, hcomma, hcomma', Option.bind_eq_bind, Option.bind_some]
  rw [Text.takeWhile_run h.severity_chars hblank, Text.dropWhile_run h.severity_chars hblank]
  simp only [if_neg h.severity_ne, hafter, hmessage, Option.bind_some]
  rfl

theorem exists_of_pieces? {q : Located} (h : pieces? t = some q) :
    ∃ (p : Parts) (message : Text) (rule : Option Text), t = p.write ∧ p.Sound ∧
      Text.DigitRun p.line ∧ Text.DigitRun p.column ∧
      message? p.text = some (message, rule) ∧ q = p.located message rule := by
  unfold pieces? at h
  dsimp only at h
  split at h
  · cases h
  · rename_i hfile
    obtain ⟨u, hu, h⟩ := Option.bind_eq_some_iff.mp h
    obtain ⟨⟨line, v⟩, hv, h⟩ := Option.bind_eq_some_iff.mp h
    obtain ⟨w, hw, h⟩ := Option.bind_eq_some_iff.mp h
    obtain ⟨⟨column, x⟩, hx, h⟩ := Option.bind_eq_some_iff.mp h
    obtain ⟨y, hy, h⟩ := Option.bind_eq_some_iff.mp h
    split at h
    · cases h
    · rename_i hseverity
      obtain ⟨text, htext, h⟩ := Option.bind_eq_some_iff.mp h
      obtain ⟨⟨message, rule⟩, hmessage, hfound⟩ := Option.bind_eq_some_iff.mp h
      obtain ⟨hline, hu', -⟩ := Text.digitRun?_eq_some_iff.mp hv
      obtain ⟨hcolumn, hw', -⟩ := Text.digitRun?_eq_some_iff.mp hx
      refine ⟨⟨t.takeWhile (· != ':'), line, column, y.takeWhile Unicode.isWordChar, text⟩,
        message, rule, ?_, ⟨hfile, ?_, hseverity, ?_, ?_⟩, hline, hcolumn, hmessage,
        (Option.some.inj hfound).symm⟩
      · have hback : t.dropWhile (· != ':') = ": line ".toList ++ (line ++ (", col ".toList ++
            (column ++ (", ".toList ++ y)))) := by
          rw [← Text.after?_eq_some_iff.mp hy, ← hw', ← Text.after?_eq_some_iff.mp hw, ← hu',
            ← Text.after?_eq_some_iff.mp hu]
        have hword : y = y.takeWhile Unicode.isWordChar ++ (" - ".toList ++ text) := by
          rw [← Text.after?_eq_some_iff.mp htext, List.takeWhile_append_dropWhile]
        calc t = t.takeWhile (· != ':') ++ t.dropWhile (· != ':') :=
              List.takeWhile_append_dropWhile.symm
          _ = t.takeWhile (· != ':') ++ (": line ".toList ++ (line ++ (", col ".toList ++
              (column ++ (", ".toList ++
                (y.takeWhile Unicode.isWordChar ++ (" - ".toList ++ text))))))) := by
              rw [hback, ← hword]
          _ = _ := by simp only [Parts.write, List.append_assoc]
      · intro hcolon
        exact absurd (List.mem_takeWhile_imp hcolon) (by decide)
      · intro c hc
        exact List.mem_takeWhile_imp hc
      · exact (message?_eq_some_iff.mp hmessage).1.text_ne (message?_eq_some_iff.mp hmessage).2.1

/-! ### Lines -/

/-- A trimmed line begins in its file, so the file is not blank. -/
theorem Parts.Sound.trim_file_ne {p : Parts} (h : p.Sound) (htrim : Text.trim p.write = p.write) :
    Text.trim p.file ≠ [] := by
  obtain ⟨c, u, hfile⟩ := List.ne_nil_iff_exists_cons.mp h.file_ne
  have hfirst : isBlank c = false := by
    have hbare := Text.bare_trim p.write
    rw [htrim] at hbare
    apply hbare.first
    rw [Parts.write, hfile]
    rfl
  have hmem : c ∈ p.file := by
    rw [hfile]
    exact List.mem_cons_self
  exact Text.trim_ne_nil_of_mem hmem hfirst

theorem Parts.Sound.trimmed?_severity {p : Parts} (h : p.Sound) :
    Text.trimmed? p.severity = some p.severity := by
  apply Text.trimmed?_of_forall _ h.severity_ne
  intro c hc
  exact Unicode.isBlank_of_isWordChar (h.severity_chars c hc)

theorem Ends.bind_trimmed? {rule : Option Text} (h : Ends t message rule) :
    rule.bind Text.trimmed? = rule := by
  cases h with
  | ruled h => exact Text.trimmed?_of_forall (fun c hc => (h.rule_chars c hc).2.2) h.rule_ne
  | plain h => rfl

/-- What is said is part of the text. -/
theorem Ends.message_subset {rule : Option Text} (h : Ends t message rule) : message ⊆ t := by
  intro c hc
  cases h with
  | ruled h =>
      rw [h.eq]
      simp [hc]
  | plain h => exact hc

theorem lineMatch?_located {p : Parts} {line column : UInt32} {rule : Option Text} (h : p.Sound)
    (hline : Text.Numeral p.line line) (hcolumn : Text.Numeral p.column column)
    (hends : Ends p.text message rule) (hfile : Text.trim p.file ≠ [])
    (hmessage : Text.trim message ≠ []) :
    (p.located message rule).lineMatch? = some (p.lineMatch line column message rule) := by
  have hrule : rule = (rule.bind Text.trimmed?).or none := by
    rw [hends.bind_trimmed?, Option.or_none]
  apply Located.lineMatch?_eq_some_iff.mpr
  exact
    { file := Text.trimmed?_eq_some_iff.mpr ⟨rfl, hfile⟩
      message := Text.trimmed?_eq_some_iff.mpr ⟨rfl, hmessage⟩
      line := ⟨line, Text.uint32?_of_numeral hline, rfl⟩
      column := Option.map_eq_some_iff.mpr ⟨column, Text.uint32?_of_numeral hcolumn, rfl⟩
      severity := h.trimmed?_severity.symm
      rule := hrule
      endLine := rfl
      endColumn := rfl
      helpUri := rfl }

/-- **The compact format is its grammar.**  A trimmed line is recognized just if it is made of
sound parts, with numbers in ASCII digits that fit and something said in front of the rule, and
then the match holds these parts. -/
theorem matchLine?_eq_some_iff (htrim : Text.trim t = t) (hnewline : '\n' ∉ t) :
    matcher.matchLine? t = some m ↔
      ∃ (p : Parts) (line column : UInt32) (message : Text) (rule : Option Text),
        t = p.write ∧ p.Sound ∧ Text.Numeral p.line line ∧ Text.Numeral p.column column ∧
        Ends p.text message rule ∧ Text.trim message ≠ [] ∧
        m = p.lineMatch line column message rule := by
  constructor
  · intro h
    obtain ⟨q, hpieces, hmatch⟩ := Option.bind_eq_some_iff.mp h
    obtain ⟨p, message, rule, rfl, hp, hline, hcolumn, hsaid, rfl⟩ := exists_of_pieces? hpieces
    have hm := Located.lineMatch?_eq_some_iff.mp hmatch
    obtain ⟨hends, -, -⟩ := message?_eq_some_iff.mp hsaid
    obtain ⟨line, hn, -⟩ := hm.line
    obtain ⟨column, hk, -⟩ := Option.map_eq_some_iff.mp hm.column
    have hn := Text.numeral_of_uint32? hn hline.plus_notMem
    have hk := Text.numeral_of_uint32? hk hcolumn.plus_notMem
    have hmessage : Text.trim message ≠ [] := by
      obtain ⟨heq, hne⟩ := Text.trimmed?_eq_some_iff.mp hm.message
      rw [show Text.trim message = m.message from heq]
      exact hne
    have hmade := lineMatch?_located hp hn hk hends (hp.trim_file_ne htrim) hmessage
    exact ⟨p, line, column, message, rule, rfl, hp, hn, hk, hends, hmessage,
      Option.some.inj (hmatch.symm.trans hmade)⟩
  · rintro ⟨p, line, column, message, rule, rfl, hp, hline, hcolumn, hends, hmessage, rfl⟩
    have hsaid : message? p.text = some (message, rule) := by
      refine message?_eq_some_iff.mpr ⟨hends, ?_, ?_⟩
      · rintro rfl
        exact hmessage rfl
      · intro hmem
        exact hnewline (List.mem_append_right _ (hends.message_subset hmem))
    exact Option.bind_eq_some_iff.mpr
      ⟨_, pieces?_write hp hline.digitRun hcolumn.digitRun hsaid,
        lineMatch?_located hp hline hcolumn hends (hp.trim_file_ne htrim) hmessage⟩

/-- A line with a second location in its message, and parentheses that are no rule. -/
def nestedLine : Text :=
  "my file.js : line 012, col 5, Error - a.js: line 1, col 2, x - call f(a b) (no-call)".toList

theorem matchLine?_nestedLine : Text.trim nestedLine = nestedLine ∧ '\n' ∉ nestedLine ∧
    matcher.matchLine? nestedLine = some
      { file := "my file.js".toList, line := some 12, column := some 5, endLine := none
        endColumn := none, severity := some "Error".toList, rule := some "no-call".toList
        helpUri := none
        message := "a.js: line 1, col 2, x - call f(a b)".toList } := by
  have htrim : Text.trim nestedLine = nestedLine := by decide +kernel
  have hnewline : '\n' ∉ nestedLine := by decide +kernel
  let p : Parts :=
    { file := "my file.js ".toList, line := "012".toList, column := "5".toList
      severity := "Error".toList
      text := "a.js: line 1, col 2, x - call f(a b) (no-call)".toList }
  have hword : p.severity.all Unicode.isWordChar = true := by decide +kernel
  have hp : p.Sound :=
    ⟨by decide, by decide +kernel, by decide, List.all_eq_true.mp hword, by decide⟩
  have hrule : "no-call".toList.all isRuleChar = true := by decide +kernel
  have hends : Ends p.text "a.js: line 1, col 2, x - call f(a b)".toList
      (some "no-call".toList) := by
    apply Ends.ruled
    refine ⟨by decide, by decide, ?_, by decide +kernel⟩
    intro c hc
    exact isRuleChar_iff.mp (List.all_eq_true.mp hrule c hc)
  refine ⟨htrim, hnewline, (matchLine?_eq_some_iff htrim hnewline).mpr ?_⟩
  exact ⟨p, 12, 5, _, _, by decide +kernel, hp, by decide +kernel, by decide +kernel, hends,
    by decide +kernel, by decide +kernel⟩

end LintFindings.Compact
