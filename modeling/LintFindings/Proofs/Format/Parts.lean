/-
A line of a compiler is nothing but the parts that are read from it.

Each reader takes a part off the front of a text and hands on the rest, and the last one
cuts the rule off the end.  So the text is these parts in a row, whatever the readers
tried before: `Messaged`, `Coded` and `Bodied` say this of the text behind the code, behind
the severity and behind the location, and each has one lemma about its reader.  A part that
is missing stands for no text at all.

The readers look behind blanks, and there they find either a text that does not begin
with a blank or nothing but blanks (`Begun`).  This is what is known of the message, too, and
it is why nothing is lost where the margins of a message are dropped: a message that is not
blank has none in front, and one behind it could only be at the end of the line.
`madeOf_of_matchLine?` puts this together.
-/
import LintFindings.Proofs.Format.Gnu

namespace LintFindings.Gnu

/-! ### The parts -/

/-- A row of blanks; it may have none. -/
def Gap (t : Text) : Prop := ∀ c ∈ t, isBlank c = true

/-- A column behind a colon. -/
inductive ColumnPart : Option UInt32 → Text → Prop
  | missing : ColumnPart none []
  | written {digits : Text} {n : UInt32} (hdigits : Text.Numeral digits n) :
      ColumnPart (some n) (':' :: digits)

/-- A severity before a colon. -/
inductive SeverityPart : Option Text → Text → Prop
  | missing : SeverityPart none []
  | written {word gap gap' : Text}
      (hword : word.map Unicode.foldCase ∈ Severity.knownTokens.map Prod.fst)
      (hchars : ∀ c ∈ word, c ≠ ':' ∧ isBlank c = false) (hgap : Gap gap) (hgap' : Gap gap') :
      SeverityPart (some word) (word ++ gap ++ ':' :: gap')

/-- The mark of a rule that can be fixed. -/
inductive MarkPart : Text → Prop
  | missing : MarkPart []
  | written {gap : Text} (hne : gap ≠ []) (hgap : Gap gap) : MarkPart ("[*]".toList ++ gap)

/-- A code with its colon and mark. -/
inductive CodePart : Option Text → Text → Prop
  | missing : CodePart none []
  | written {code colon gap mark : Text} (hcode : IsCode code) (hcolon : colon = [] ∨ colon = [':'])
      (hne : gap ≠ []) (hgap : Gap gap) (hmark : MarkPart mark) :
      CodePart (some code) (code ++ colon ++ gap ++ mark)

/-- A rule in brackets. -/
inductive RulePart : Option Text → Text → Prop
  | missing : RulePart none []
  | written {gap rule : Text} {opening close : Char} (hne : gap ≠ []) (hgap : Gap gap)
      (hopening : opening = '(' ∨ opening = '[') (hrule_ne : rule ≠ [])
      (hrule : ∀ c ∈ rule, isRuleChar c = true) (hclose : close = ')' ∨ close = ']') :
      RulePart (some rule) (gap ++ opening :: (rule ++ [close]))

/-! ### The message and its rule -/

variable {t u : Text} {front : Front} {b : Body}

/-- A text that does not begin with a blank, unless it has nothing else. -/
def Begun (t : Text) : Prop := (∀ c ∈ t.head?, isBlank c = false) ∨ Gap t

theorem Begun.of_append (h : Begun (t ++ u)) (hne : t ≠ []) : Begun t := by
  obtain ⟨c, t, rfl⟩ := List.ne_nil_iff_exists_cons.mp hne
  obtain hfirst | hgap := h
  · exact Or.inl hfirst
  · exact Or.inr fun d hd => hgap d (List.mem_append_left u hd)

/-- A message and the rule behind it. -/
structure Messaged (t : Text) (b : Body) : Prop where
  eq : ∃ rule, RulePart b.rule rule ∧ t = b.message ++ rule
  message_ne : b.message ≠ []
  message_begun : Begun b.message
  message_last : b.rule ≠ none → ∀ c ∈ b.message.getLast?, isBlank c = false

theorem messaged_of_message? (ht : Begun t) (h : message? front t = some b) :
    Messaged t b ∧ b.severity = front.severity ∧ b.code = front.code := by
  rw [message?] at h
  cases hcut : cutRule? t with
  | none =>
      rw [hcut] at h
      dsimp only at h
      split at h
      · cases h
      · rename_i hgood
        obtain rfl := Option.some.inj h
        refine ⟨⟨⟨[], RulePart.missing, (List.append_nil t).symm⟩, fun hnil => hgood (Or.inl hnil),
          ht, fun hrule => absurd rfl hrule⟩, rfl, rfl⟩
  | some parts =>
      obtain ⟨message, rule⟩ := parts
      have hruled := ruled_of_cutRule? hcut
      obtain ⟨gap, opening, close, hne, hgap, hopening, hclose, rfl⟩ := hruled.eq
      rw [hcut] at h
      dsimp only at h
      split at h
      · cases h
      · obtain rfl := Option.some.inj h
        rw [List.append_assoc] at ht
        have hpart := RulePart.written hne hgap hopening hruled.rule_ne hruled.rule_chars hclose
        refine ⟨⟨⟨_, hpart, ?_⟩, hruled.message_ne, ht.of_append hruled.message_ne,
          fun _ => hruled.message_last⟩, rfl, rfl⟩
        rw [List.append_assoc]

/-! ### From the code to the location -/

/-- What is behind blanks is what some reader has found there. -/
theorem exists_of_afterBlanks? {next? : Text → Option Body}
    (h : afterBlanks? front next? t = some b) :
    ∃ gap u, Gap gap ∧ t = gap ++ u ∧ Begun u ∧ (next? u = some b ∨ message? front u = some b) := by
  obtain ⟨gap, u, hgap, rfl, -, ⟨hfirst, hnext⟩ | ⟨hall, hmessage⟩⟩ := afterBlanks?_eq_some h
  · exact ⟨gap, u, hgap, rfl, Or.inl hfirst, Or.inl hnext⟩
  · exact ⟨gap, u, hgap, rfl, Or.inr hall, Or.inr hmessage⟩

theorem exists_of_marked? (ht : Begun t) (h : marked? front t = some b) :
    ∃ mark u, MarkPart mark ∧ t = mark ++ u ∧ Messaged u b ∧ b.severity = front.severity ∧
      b.code = front.code := by
  obtain hmark | ⟨-, hplain⟩ := Option.or_eq_some_iff.mp h
  · obtain ⟨u, hu, hblanks⟩ := Option.bind_eq_some_iff.mp hmark
    obtain ⟨c, hc, rfl⟩ := afterMark?_eq_some_iff.mp hu
    obtain ⟨gap, v, hgap, rfl, hv, hmessage | hmessage⟩ := exists_of_afterBlanks? hblanks
    all_goals
      refine ⟨"[*]".toList ++ c :: gap, v, MarkPart.written (by simp) ?_, by simp,
        messaged_of_message? hv hmessage⟩
      exact List.forall_mem_cons.mpr ⟨hc, hgap⟩
  · exact ⟨[], t, MarkPart.missing, rfl, messaged_of_message? ht hplain⟩

/-- A code, and the message and the rule behind it. -/
def Coded (t : Text) (b : Body) : Prop :=
  ∃ code u, CodePart b.code code ∧ t = code ++ u ∧ Messaged u b

theorem coded_of_message? {severity : Option Text} (ht : Begun t)
    (h : message? ⟨severity, none⟩ t = some b) : Coded t b ∧ b.severity = severity := by
  obtain ⟨hmessaged, hseverity, hcode⟩ := messaged_of_message? ht h
  refine ⟨⟨[], t, ?_, rfl, hmessaged⟩, hseverity⟩
  rw [hcode]
  exact CodePart.missing

theorem coded_of_coded? {severity : Option Text} (ht : Begun t) (h : coded? severity t = some b) :
    Coded t b ∧ b.severity = severity := by
  obtain hcode | ⟨-, hplain⟩ := Option.or_eq_some_iff.mp h
  · obtain ⟨⟨code, u⟩, hu, hblanks⟩ := Option.bind_eq_some_iff.mp hcode
    obtain ⟨hiscode, colon, c, hcolon, hc, rfl⟩ := code?_eq_some_iff.mp hu
    obtain ⟨gap, v, hgap, rfl, hv, hrest⟩ := exists_of_afterBlanks? hblanks
    have hmark : ∃ mark w, MarkPart mark ∧ v = mark ++ w ∧ Messaged w b ∧ b.severity = severity ∧
        b.code = some code := by
      obtain hmarked | hmessage := hrest
      · exact exists_of_marked? hv hmarked
      · exact ⟨[], v, MarkPart.missing, rfl, messaged_of_message? hv hmessage⟩
    obtain ⟨mark, w, hmark, rfl, hmessaged, hseverity, hfound⟩ := hmark
    refine ⟨⟨code ++ colon ++ c :: gap ++ mark, w, ?_, by simp, hmessaged⟩, hseverity⟩
    rw [hfound]
    exact CodePart.written hiscode hcolon (by simp) (List.forall_mem_cons.mpr ⟨hc, hgap⟩) hmark
  · exact coded_of_message? ht hplain

/-- A severity, and the code, the message and the rule behind it. -/
def Bodied (t : Text) (b : Body) : Prop :=
  ∃ severity u, SeverityPart b.severity severity ∧ t = severity ++ u ∧ Coded u b

theorem bodied_of_coded (h : Coded t b ∧ b.severity = none) : Bodied t b := by
  refine ⟨[], t, ?_, rfl, h.1⟩
  rw [h.2]
  exact SeverityPart.missing

theorem bodied_of_body? (ht : Begun t) (h : body? t = some b) : Bodied t b := by
  obtain hsevere | ⟨-, hplain⟩ := Option.or_eq_some_iff.mp h
  · obtain ⟨⟨word, u⟩, hu, hblanks⟩ := Option.bind_eq_some_iff.mp hsevere
    have hword := severe_of_severity? hu
    obtain ⟨gap, hgap, rfl⟩ := hword.eq
    obtain ⟨gap', v, hgap', rfl, hv, hrest⟩ := exists_of_afterBlanks? hblanks
    have hcoded : Coded v b ∧ b.severity = some word := by
      obtain hcoded | hmessage := hrest
      · exact coded_of_coded? hv hcoded
      · exact coded_of_message? hv hmessage
    refine ⟨word ++ gap ++ ':' :: gap', v, ?_, by simp, hcoded.1⟩
    rw [hcoded.2]
    exact SeverityPart.written hword.known hword.chars hgap hgap'
  · exact bodied_of_coded (coded_of_coded? ht hplain)

theorem bodied_of_rest? (h : rest? t = some b) : ∃ gap u, Gap gap ∧ t = gap ++ u ∧ Bodied u b := by
  obtain ⟨gap, u, hgap, rfl, hu, hbody | hmessage⟩ := exists_of_afterBlanks? h
  · exact ⟨gap, u, hgap, rfl, bodied_of_body? hu hbody⟩
  · exact ⟨gap, u, hgap, rfl, bodied_of_coded (coded_of_message? hu hmessage)⟩

/-! ### The whole line -/

/-- A line that is made of pieces, as far as they are found in it. -/
structure Pieced (t : Text) (p : Located) : Prop where
  file : IsPath p.file
  line : Text.DigitRun p.line
  column : ∀ ds ∈ p.column, Text.DigitRun ds
  eq : ∃ gap severity code rule, Gap gap ∧ SeverityPart p.severity severity ∧
    CodePart p.code code ∧ RulePart p.rule rule ∧
    t = p.file ++ ':' :: (p.line ++ p.column.elim [] (':' :: ·) ++
      ':' :: (gap ++ severity ++ code ++ p.message ++ rule))
  message_ne : p.message ≠ []
  message_begun : Begun p.message
  message_last : p.rule ≠ none → ∀ c ∈ p.message.getLast?, isBlank c = false

theorem pieced_of_pieces? {p : Located} (h : pieces? t = some p) : Pieced t p := by
  obtain ⟨file, line, column, v, b, hfile, hline, hcolumn, rfl, hrest, rfl⟩ := exists_of_pieces? h
  obtain ⟨gap, u, hgap, rfl, severity, w, hseverity, rfl, code, x, hcode, rfl, hmessaged⟩ :=
    bodied_of_rest? hrest
  obtain ⟨rule, hrule, rfl⟩ := hmessaged.eq
  refine ⟨hfile, hline, hcolumn, ⟨gap, severity, code, rule, hgap, hseverity, hcode, hrule, ?_⟩,
    hmessaged.message_ne, hmessaged.message_begun, hmessaged.message_last⟩
  simp [located]

/-- A line that is made of the parts of a match, and of signs and blanks between them. -/
structure MadeOf (t : Text) (m : LineMatch) : Prop where
  eq : ∃ line digits column gap severity code codePart rule rulePart,
    m.line = some line ∧ Text.Numeral digits line ∧ ColumnPart m.column column ∧ Gap gap ∧
    SeverityPart m.severity severity ∧ CodePart code codePart ∧ RulePart rule rulePart ∧
    m.rule = rule.or code ∧
    t = m.file ++ ':' :: (digits ++ column ++
      ':' :: (gap ++ severity ++ codePart ++ m.message ++ rulePart))
  file : IsPath m.file
  file_eq : m.file = t.takeWhile (· != ':')
  message_ne : m.message ≠ []
  message_trim : Text.trim m.message = m.message
  endLine : m.endLine = none
  endColumn : m.endColumn = none
  helpUri : m.helpUri = none

theorem SeverityPart.bind_trimmed? {severity : Option Text} (h : SeverityPart severity t) :
    severity.bind Text.trimmed? = severity := by
  cases h with
  | missing => rfl
  | written hword hchars =>
      refine Text.trimmed?_of_forall (fun c hc => (hchars c hc).2) ?_
      rintro rfl
      exact absurd hword (by decide)

theorem CodePart.bind_trimmed? {code : Option Text} (h : CodePart code t) :
    code.bind Text.trimmed? = code := by
  cases h with
  | missing => rfl
  | written hcode => exact trimmed?_of_isCode hcode

theorem RulePart.bind_trimmed? {rule : Option Text} (h : RulePart rule t) :
    rule.bind Text.trimmed? = rule := by
  cases h with
  | missing => rfl
  | written _ _ _ hne hrule =>
      exact Text.trimmed?_of_forall (fun c hc => isBlank_of_isRuleChar (hrule c hc)) hne

theorem ColumnPart.of_optionalUint32? {column : Option Text} {n : Option UInt32}
    (hcolumn : ∀ ds ∈ column, Text.DigitRun ds) (h : Text.optionalUint32? column = some n) :
    ColumnPart n (column.elim [] (':' :: ·)) := by
  cases column with
  | none =>
      obtain rfl := Option.some.inj h
      exact ColumnPart.missing
  | some ds =>
      obtain ⟨k, hk, rfl⟩ := Option.map_eq_some_iff.mp h
      exact ColumnPart.written (Text.numeral_of_uint32? hk (hcolumn ds rfl).plus_notMem)

/-- Where no blank stands at the end of a line, none stands at either end of its message. -/
theorem Pieced.message_bare {p : Located} (h : Pieced t p)
    (ht : ∀ c ∈ t.getLast?, isBlank c = false) : p.message.Bare := by
  have hlast : ∀ c ∈ p.message.getLast?, isBlank c = false := by
    obtain ⟨gap, severity, code, rule, -, -, -, hrule, heq⟩ := h.eq
    by_cases hnone : p.rule = none
    · rw [hnone] at hrule
      cases hrule
      have hfront : t = (p.file ++ ':' :: (p.line ++ p.column.elim [] (':' :: ·) ++
          ':' :: (gap ++ severity ++ code))) ++ p.message := by
        rw [heq]
        simp
      rw [hfront] at ht
      exact Text.getLast?_of_append ht
    · exact h.message_last hnone
  refine ⟨?_, hlast⟩
  obtain hfirst | hgap := h.message_begun
  · exact hfirst
  · have hend := hlast _ (List.getLast?_eq_some_getLast h.message_ne)
    rw [hgap _ (List.getLast_mem h.message_ne)] at hend
    cases hend

/-- **A line is nothing but the parts that are read from it.** -/
theorem madeOf_of_matchLine? {m : LineMatch} (htrim : Text.trim t = t)
    (h : matcher.matchLine? t = some m) : MadeOf t m := by
  obtain ⟨p, hpieces, hmatch⟩ := Option.bind_eq_some_iff.mp h
  have hp := pieced_of_pieces? hpieces
  have hm := Located.lineMatch?_eq_some_iff.mp hmatch
  have hfile : p.file = m.file := by
    rw [← Option.some_inj, ← hm.file, trimmed?_of_isPath hp.file]
  have hbare : p.message.Bare := hp.message_bare (htrim ▸ (Text.bare_trim t).last)
  have hmessage : p.message = m.message := by
    rw [← Option.some_inj, ← hm.message, Text.trimmed?_of_bare hbare hp.message_ne]
  obtain ⟨line, hline, hsome⟩ := hm.line
  obtain ⟨gap, severity, code, rule, hgap, hseverity, hcode, hrule, heq⟩ := hp.eq
  refine
    { eq := ⟨line, p.line, p.column.elim [] (':' :: ·), gap, severity, p.code, code, p.rule, rule,
        hsome, Text.numeral_of_uint32? hline hp.line.plus_notMem,
        ColumnPart.of_optionalUint32? hp.column hm.column, hgap, ?_, hcode, hrule, ?_, ?_⟩
      file := hfile ▸ hp.file
      file_eq := ?_
      message_ne := hmessage ▸ hp.message_ne
      message_trim := by rw [← hmessage, Text.trim_of_bare hbare]
      endLine := hm.endLine
      endColumn := hm.endColumn
      helpUri := hm.helpUri }
  · rw [hm.severity, hseverity.bind_trimmed?]
    exact hseverity
  · rw [hm.rule, hrule.bind_trimmed?, hcode.bind_trimmed?]
  · rw [← hfile, ← hmessage]
    exact heq
  · rw [heq, Text.takeWhile_run hp.file.ne_colon (Text.head?_cons_of rfl), hfile]

/-- A line that has every part, with blanks between them. -/
def fullLine : Text :=
  "src/a.py:12:5:  Warning : F401: [*]  unused import  [unused-import]".toList

/-- The match that its parts make. -/
def fullMatch : LineMatch :=
  { file := "src/a.py".toList, line := some 12, column := some 5, endLine := none
    endColumn := none, severity := some "Warning".toList, rule := some "unused-import".toList
    helpUri := none, message := "unused import".toList }

theorem madeOf_fullLine : Text.trim fullLine = fullLine ∧
    matcher.matchLine? fullLine = some fullMatch ∧ MadeOf fullLine fullMatch := by
  have htrim : Text.trim fullLine = fullLine := by decide
  have hmatch : matcher.matchLine? fullLine = some fullMatch := by decide +kernel
  exact ⟨htrim, hmatch, madeOf_of_matchLine? htrim hmatch⟩

end LintFindings.Gnu
