/-
The compact format is its pattern.

A text is ruled in at most one way, so it does not matter that the pattern looks for the shortest
message and the reader for the rule at the end.  All other parts end where the sign behind them
begins, and are read one after the other (`groups_pieces`).
-/
import LintFindings.Proofs.Format.Compact
import LintFindings.Proofs.Format.Pattern.Groups

namespace LintFindings.Compact

open Regex

/-! ### The expression -/

/-- The characters of a file. -/
def inFile : CharSet := .compl (.unions [.single ':'])

/-- The characters of a rule. -/
def inRule : CharSet := .compl (.unions [.single '(', .single ')', .blank])

/-- The file of a line. -/
def filePart : Regex := named "file" (.loop 1 none false (.set inFile))

/-- The rule of a line. -/
def rulePart : List Regex := " (".toList.map sign ++ [named "rule" (several inRule), sign ')']

/-- The expression of the format. -/
def regex : Regex :=
  seq ([.look .textStart, filePart] ++ ": line ".toList.map sign ++ [named "line" (several .digit)] ++
    ", col ".toList.map sign ++ [named "col" (several .digit)] ++ ", ".toList.map sign ++
    [named "severity" (several .word)] ++ " - ".toList.map sign ++
    [messagePart, maybe rulePart, .look .textEnd])

theorem read?_pattern : Regex.read? pattern = some regex := by decide +kernel

variable {g : List (Text × Text)} {w : Way} {t u v message rule : Text} {o : Option Text} {c : Char}
  {x : Text → Option Text}

theorem mem_inRule : inRule.mem c = true ↔ c ≠ '(' ∧ c ≠ ')' ∧ isBlank c = false := by
  simp [inRule]

/-! ### The message and its rule -/

/-- What the end of a line is: a rule, or nothing. -/
def IsEnd (o : Option Text) (t : Text) : Prop :=
  match o with
  | none => t = []
  | some rule => rule ≠ [] ∧ (∀ c ∈ rule, c ≠ '(' ∧ c ≠ ')' ∧ isBlank c = false) ∧
      t = " (".toList ++ rule ++ ")".toList

/-- What is found behind the message: a rule, or nothing. -/
def fromRule : Finds := (maybe rulePart).answer? atEnd

theorem answer?_rulePart (hw : w.captured = held g) (h : IsEnd (some rule) w.rest) :
    (seq rulePart).answer? atEnd w = some (held (took "rule" (some rule) ++ g)) := by
  obtain ⟨hne, hchars, hrest⟩ := h
  rw [List.append_assoc] at hrest
  have hafter := Text.after?_eq_some_iff.mpr hrest
  have hclose : inRule.mem ')' = false := by decide
  have hother : ∀ c, inRule.mem c = true → (CharSet.single ')').mem c = false := by
    intro c hc
    rw [CharSet.mem_single, beq_eq_false_iff_ne]
    rintro rfl
    cases hc.symm.trans hclose
  rw [rulePart, answer?_seq_append, answer?_signs, hafter, Option.bind_some, answer?_seq_cons,
    answer?_seq_cons, answer?_seq_nil, named, answer?_group_some, several,
    answer?_run_one_append (fun w => begins_sign (w.leave _)) hother rfl hne
      (fun c hc => mem_inRule.mpr (hchars c hc)) (Text.head?_cons_of hclose), answer?_sign]
  refine atEnd_nil ?_ rfl
  rw [Way.captured_past (u := [')']) (v := []) rfl]
  exact Way.captured_held ((Way.captured_past hrest).trans hw) rfl "rule"

theorem exists_of_answer?_rulePart (h : (seq rulePart).answer? atEnd w = some x) :
    ∃ rule, IsEnd (some rule) w.rest := by
  rw [rulePart, answer?_seq_append, answer?_signs] at h
  obtain ⟨t, ht, h⟩ := Option.bind_eq_some_iff.mp h
  rw [answer?_seq_cons, answer?_seq_cons, answer?_seq_nil, named, answer?_group_some] at h
  obtain ⟨rule, u, hu, hne, hrule, h⟩ := exists_of_answer?_run_one h
  rw [answer?_sign] at h
  obtain ⟨v, hv, h⟩ := Option.bind_eq_some_iff.mp h
  rw [Way.rest_enter, Way.rest_past] at hu
  rw [Way.rest_leave, Way.rest_past, Text.after?_eq_some_iff] at hv
  obtain rfl : v = [] := rest_of_atEnd h
  refine ⟨rule, hne, fun c hc => mem_inRule.mp (hrule c hc), ?_⟩
  rw [Text.after?_eq_some_iff.mp ht, hu, hv, List.append_assoc]
  rfl

theorem readsRule : ReadsRule fromRule IsEnd where
  found := by
    intro g w o hw h
    rw [fromRule, answer?_maybe]
    cases o with
    | none =>
        have hnone : (seq rulePart).answer? atEnd w = none := by
          rw [rulePart, answer?_seq_append]
          exact begins_signs w (by rw [show w.rest = [] from h]; exact nofun)
        rw [hnone, Option.none_or, atEnd_nil hw h]
        rfl
    | some rule => rw [answer?_rulePart hw h, Option.some_or]
  sound := by
    intro w x h
    rw [fromRule, answer?_maybe] at h
    obtain h | ⟨-, h⟩ := Option.or_eq_some_iff.mp h
    · obtain ⟨rule, hrule⟩ := exists_of_answer?_rulePart h
      exact ⟨some rule, hrule⟩
    · exact ⟨none, rest_of_atEnd h⟩

/-- What is found from the message on. -/
def fromMessage : Finds := messagePart.answer? fromRule

theorem ruled_iff : Ruled t message rule ↔
    message ≠ [] ∧ ∃ v, t = message ++ v ∧ IsEnd (some rule) v := by
  constructor
  · intro h
    refine ⟨h.message_ne, _, ?_, h.rule_ne, h.rule_chars, rfl⟩
    rw [h.eq, List.append_assoc, List.append_assoc, List.append_assoc]
  · rintro ⟨hne, v, rfl, hrule_ne, hrule, rfl⟩
    exact ⟨hne, hrule_ne, hrule, by simp only [List.append_assoc]⟩

/-- Where the reader refuses a message, none is found. -/
theorem fromMessage_of_none (hw : w.captured = held g) (h : message? w.rest = none) :
    fromMessage w = none := by
  have hsaid {message : Text} {rule : Option Text} (hends : Ends w.rest message rule)
      (hne : message ≠ []) (hline : '\n' ∉ message) : False := by
    cases h.symm.trans (message?_eq_some_iff.mpr ⟨hends, hne, hline⟩)
  refine readsRule.message_eq_none hw fun u v o hrest hne ho => by_contra fun hline => ?_
  cases o with
  | some rule => exact hsaid (.ruled (ruled_iff.mpr ⟨hne, v, hrest, ho⟩)) hne hline
  | none =>
      rw [show v = [] from ho, List.append_nil] at hrest
      rw [← hrest] at hne hline
      by_cases hruled : ∃ message rule, Ruled w.rest message rule
      · obtain ⟨message, rule, hruled⟩ := hruled
        exact hsaid (.ruled hruled) hruled.message_ne fun hmem =>
          hline (Ends.message_subset (.ruled hruled) hmem)
      · exact hsaid (.plain fun message rule h => hruled ⟨message, rule, h⟩) hne hline

/-- A message and the rule behind it are found as the reader finds them. -/
theorem takes_fromMessage : Takes fromMessage fun g t =>
    (message? t).map fun (message, rule) =>
      held (took "rule" rule ++ (took "message" (some message) ++ g)) := by
  intro g w hw
  dsimp only
  cases hfound : message? w.rest with
  | none => exact fromMessage_of_none hw hfound
  | some found =>
      obtain ⟨message, rule⟩ := found
      obtain ⟨hends, hne, hline⟩ := message?_eq_some_iff.mp hfound
      cases hends with
      | @ruled _ rule h =>
          obtain ⟨-, v, hrest, ho⟩ := ruled_iff.mp h
          rw [fromMessage, readsRule.message_eq_some hw hrest hne hline ho]
          · rfl
          · intro a b o hab ha hb ho'
            cases o with
            | none => exact hb (List.append_eq_nil_iff.mp ho').1
            | some rule' =>
                -- the rule that is cut off is the same, and so is the message in front of it
                have h' : Ruled w.rest a rule' :=
                  ruled_iff.mpr ⟨ha, _, by rw [hrest, hab, List.append_assoc], ho'⟩
                have hcut := (cutRule?_of_ruled h).symm.trans (cutRule?_of_ruled h')
                have hsame := (Prod.mk.inj (Option.some.inj hcut)).1
                exact hb (List.append_right_eq_self.mp (hab.symm.trans hsame))
      | plain hplain =>
          rw [fromMessage, readsRule.message_eq_some (o := none) hw (List.append_nil _).symm hne
            hline rfl]
          · rfl
          · intro a b o hab ha hb ho
            rw [List.append_nil] at ho
            cases o with
            | none => exact hb ho
            | some rule => exact hplain a rule (ruled_iff.mpr ⟨ha, b, hab, ho⟩)

/-! ### The line -/

/-- What is found from the severity on. -/
def fromSeverity : Finds :=
  (named "severity" (several .word)).answer? ((seq (" - ".toList.map sign)).answer? fromMessage)

/-- What is found from the column on. -/
def fromColumn : Finds :=
  (named "col" (several .digit)).answer? ((seq (", ".toList.map sign)).answer? fromSeverity)

/-- What is found from the line number on. -/
def fromLine : Finds :=
  (named "line" (several .digit)).answer? ((seq (", col ".toList.map sign)).answer? fromColumn)

/-- What is found behind the file. -/
def behindFile : Finds := (seq (": line ".toList.map sign)).answer? fromLine

/-- What the reader takes of a text behind the file. -/
def afterFile (g : List (Text × Text)) (t : Text) : Option (Text → Option Text) := do
  let t ← Text.after? ": line ".toList t
  let (line, t) ← Text.digitRun? t
  let t ← Text.after? ", col ".toList t
  let (column, t) ← Text.digitRun? t
  let t ← Text.after? ", ".toList t
  let severity := t.takeWhile Unicode.isWordChar
  if severity = [] then none
  else
    let t ← Text.after? " - ".toList (t.dropWhile Unicode.isWordChar)
    (message? t).map fun (message, rule) =>
      held (took "rule" rule ++ (took "message" (some message) ++
        (took "severity" (some severity) ++ (took "col" (some column) ++
          (took "line" (some line) ++ g)))))

theorem takes_behindFile : Takes behindFile afterFile := by
  have hseverity := (takes_fromMessage.text " - ".toList).run "severity" (s := .word)
    begins_signs (by decide)
  have hcolumn := (hseverity.text ", ".toList).number "col" begins_signs (by decide)
  have hline := (hcolumn.text ", col ".toList).number "line" begins_signs (by decide)
  intro g w hw
  refine (hline.text ": line ".toList g w hw).trans ?_
  rfl

theorem mem_inFile : inFile.mem c = (c != ':') := by
  simp [inFile, bne]

theorem begins_behindFile : Begins behindFile (.single ':') := begins_signs

theorem answer?_filePart (w : Way) : filePart.answer? behindFile w =
    if w.rest.takeWhile (· != ':') = [] then none
    else behindFile (((w.enter "file".toList).past (w.rest.takeWhile (· != ':'))
      (w.rest.dropWhile (· != ':'))).leave "file".toList) := by
  have hmem : inFile.mem = (· != ':') := funext fun c => mem_inFile
  have hother : ∀ c, inFile.mem c = true → (CharSet.single ':').mem c = false := by
    intro c hc
    rw [mem_inFile] at hc
    rw [CharSet.mem_single]
    simpa using hc
  rw [filePart, named, answer?_group_some,
    answer?_run_one (fun w hw => begins_behindFile (w.leave _) hw) hother, hmem, Way.rest_enter]

theorem pieces?_eq (t : Text) : (pieces? t).map (fun p => held p.taken) =
    if t.takeWhile (· != ':') = [] then none
    else afterFile (took "file" (some (t.takeWhile (· != ':')))) (t.dropWhile (· != ':')) := by
  rw [pieces?, afterFile]
  dsimp only
  split
  · rfl
  · simp only [Option.bind_eq_bind, Option.map_bind, Function.comp_def, apply_ite (Option.map _),
      Option.map_none, Option.map_some, Located.taken, List.append_assoc]
    simp only [Option.map_eq_bind]
    rfl

/-- **The groups of the pattern hold the pieces that are taken from a line.** -/
theorem groups_pieces (t : Text) :
    (regex.first? t).map Way.captured = (pieces? t).map fun p => held p.taken := by
  have hend : (Regex.look .textEnd).answer? (fun w => some w.captured) = atEnd := by
    rw [atEnd, answer?_seq_cons, answer?_seq_nil]
  have hstart : (Way.start [] t).captured = held [] := rfl
  have hsplit : (Way.start [] t).rest =
      t.takeWhile (· != ':') ++ t.dropWhile (· != ':') := List.takeWhile_append_dropWhile.symm
  simp only [regex, List.cons_append, List.nil_append, List.append_assoc]
  rw [map_first?_of_textStart]
  simp only [answer?_seq_cons, answer?_seq_append, answer?_seq_nil]
  rw [hend]
  refine (answer?_filePart _).trans ?_
  rw [Way.rest_start, takes_behindFile _ _ (Way.captured_held hstart hsplit "file"), pieces?_eq,
    List.append_nil]
  rfl

/-- **With every engine the pattern makes the matcher of the format.** -/
theorem matcher_of_pattern {c : CompiledRegex} (hc : c.FindsFirst regex) :
    Pattern.matcher "compact".toList c = matcher :=
  matcher_eq_of_groups groups_pieces hc _

/-- The built-in engine is such an engine. -/
theorem matcher?_pattern : Pattern.matcher? "compact".toList pattern = .ok matcher :=
  matcher?_eq_of_groups groups_pieces read?_pattern (by decide) (by decide +kernel) (by decide) _

end LintFindings.Compact
