/-
Canonical lines of compilers are taken apart into what they were written from.

`Line` holds the parts of a line and `write` puts them in a row.  Where a part is
missing, the text that stands in its place must not look like one, and this is
what `Canonical` asks of the message: that it does not begin with a severity or
with a code, and does not end in a rule, unless the line has one there already.

The proof goes from the message to the front.  Each step adds one part, and says
that the reader of this part takes it if it is there and leaves the text alone if
it is not, whatever stands behind: `message?_writeMessage`, `marked?_write`,
`coded?_writeCoded`, `body?_writeBody`, `pieces?_write`.
-/
import LintFindings.Proofs.Format.Gnu

namespace LintFindings.Gnu

variable {t u word : Text} {front : Front} {c : Char}

/-! ### Canonical lines -/

/-- The brackets around a trailing rule. -/
inductive Brackets where
  | round
  | square
  deriving DecidableEq, Repr

/-- A text in brackets. -/
def Brackets.enclose : Brackets → Text → Text
  | round, t => '(' :: (t ++ [')'])
  | square, t => '[' :: (t ++ [']'])

/-- The code in front of a message, with or without a colon, and perhaps marked as one that can
be fixed. -/
structure Code where
  name : Text
  colon : Bool
  marked : Bool
  deriving DecidableEq, Repr

namespace Code

/-- The mark, if the code has one. -/
def mark (k : Code) : Text := if k.marked then "[*] ".toList else []

/-- A code as it stands before a message. -/
def write (k : Code) : Text := k.name ++ (if k.colon then [':'] else []) ++ ' ' :: k.mark

end Code

/-- The parts that a line of a compiler is written from. -/
structure Line where
  file : Text
  line : UInt32
  column : Option UInt32
  severity : Option Text
  code : Option Code
  message : Text
  rule : Option (Brackets × Text)
  deriving DecidableEq, Repr

namespace Line

/-- The message and the rule behind it. -/
def writeMessage (l : Line) : Text :=
  l.message ++ l.rule.elim [] fun (brackets, rule) => ' ' :: brackets.enclose rule

/-- The message with its code and its rule. -/
def writeCoded (l : Line) : Text := l.code.elim [] Code.write ++ l.writeMessage

/-- What is written behind the location. -/
def writeBody (l : Line) : Text := l.severity.elim [] (· ++ ": ".toList) ++ l.writeCoded

/-- The line that the parts make. -/
def write (l : Line) : Text :=
  l.file ++ ':' :: (Text.decimal l.line.toNat ++
    (l.column.elim [] (fun n => ':' :: Text.decimal n.toNat) ++ ": ".toList ++ l.writeBody))

/-- The parts are what they are meant to be, and where one is missing, the message does not
begin or end in something that looks like it. -/
structure Canonical (l : Line) : Prop where
  file_chars : ∀ c ∈ l.file, isBlank c = false ∧ c ≠ ':'
  file_name : ∃ c ∈ l.file, c.isDigit = false
  severity : ∀ s ∈ l.severity, s.map Char.toLower ∈ Severity.knownTokens.map Prod.fst
  code : ∀ k ∈ l.code, IsCode k.name
  rule : ∀ r ∈ l.rule, r.2 ≠ [] ∧ ∀ c ∈ r.2, isRuleChar c = true
  message_ne : l.message ≠ []
  message_bare : l.message.Bare
  message_line : '\n' ∉ l.message
  no_severity : l.severity = none → l.code = none → ∀ word rest, ¬ Severe l.message word rest
  no_code : l.code = none → ¬ CodeLike (firstWord l.message)
  no_mark : ∀ k ∈ l.code, k.marked = false → firstWord l.message ≠ "[*]".toList
  no_rule : l.rule = none → ∀ message rule, ¬ Ruled l.message message rule

end Line

/-! ### From the message to the code -/

section

variable {l : Line} (h : l.Canonical)

include h

theorem message?_writeMessage : message? front l.writeMessage =
    some ⟨front.severity, front.code, l.rule.map Prod.snd, l.message⟩ := by
  cases hrule : l.rule with
  | none =>
      rw [Line.writeMessage, hrule, Option.elim_none, List.append_nil]
      exact message?_of_not_ruled (h.no_rule hrule) h.message_ne h.message_line
  | some r =>
      obtain ⟨brackets, rule⟩ := r
      obtain ⟨hne, hchars⟩ := h.rule (brackets, rule) hrule
      have hruled : Ruled l.writeMessage l.message rule := by
        refine ⟨h.message_ne, h.message_bare.last, hne, hchars, ?_⟩
        rw [Line.writeMessage, hrule, Option.elim_some]
        cases brackets with
        | round =>
            exact ⟨[' '], '(', ')', by simp, List.forall_mem_singleton.mpr rfl, .inl rfl, .inl rfl,
              by simp [Brackets.enclose]⟩
        | square =>
            exact ⟨[' '], '[', ']', by simp, List.forall_mem_singleton.mpr rfl, .inr rfl, .inr rfl,
              by simp [Brackets.enclose]⟩
      exact message?_of_ruled hruled h.message_line

theorem writeMessage_ne_nil : l.writeMessage ≠ [] := by
  intro hnil
  exact h.message_ne (List.append_eq_nil_iff.mp hnil).1

theorem writeMessage_head : ∀ c ∈ l.writeMessage.head?, isBlank c = false := by
  obtain ⟨c, t, hct⟩ := List.ne_nil_iff_exists_cons.mp h.message_ne
  intro c' hc'
  rw [Line.writeMessage, hct] at hc'
  refine h.message_bare.first c' ?_
  rw [hct]
  exact hc'

omit h in
theorem firstWord_writeMessage : firstWord l.writeMessage = firstWord l.message := by
  refine firstWord_append ?_
  cases l.rule with
  | none => exact nofun
  | some r => exact Text.head?_cons_of rfl

/-- Neither a mark nor its absence hides the message behind a code. -/
theorem marked?_write {k : Code} (hk : l.code = some k) :
    marked? front (k.mark ++ l.writeMessage) =
      some ⟨front.severity, front.code, l.rule.map Prod.snd, l.message⟩ := by
  rw [marked?, Code.mark]
  by_cases hmarked : k.marked = true
  · have hafter : afterMark? ("[*] ".toList ++ l.writeMessage) = some l.writeMessage :=
      afterMark?_eq_some_iff.mpr ⟨' ', rfl, rfl⟩
    rw [if_pos hmarked, hafter, Option.bind_some,
      afterBlanks?_self _ _ (writeMessage_ne_nil h) (writeMessage_head h),
      message?_writeMessage h, Option.some_or]
  · have hafter : afterMark? l.writeMessage = none := by
      rw [Option.eq_none_iff_forall_not_mem]
      intro u hu
      obtain ⟨c, hc, heq⟩ := afterMark?_eq_some_iff.mp hu
      refine h.no_mark k hk (eq_false_of_ne_true hmarked) ?_
      have hmark : ∀ d ∈ "[*]".toList, isBlank d = false := fun d hd =>
        eq_false_of_ne_true (List.any_eq_false.mp (by decide) d hd)
      rw [← firstWord_writeMessage, heq]
      exact firstWord_run hmark (Text.head?_cons_of hc)
    rw [if_neg hmarked, List.nil_append, hafter, Option.bind_none, Option.none_or,
      message?_writeMessage h]

theorem mark_head (k : Code) : ∀ c ∈ (k.mark ++ l.writeMessage).head?, isBlank c = false := by
  refine Text.head?_append_of ?_ (writeMessage_head h)
  rw [Code.mark]
  split
  · exact Text.head?_cons_of rfl
  · exact nofun

/-- The code is found where it is written, and only there. -/
theorem coded?_writeCoded {severity : Option Text} : coded? severity l.writeCoded =
    some ⟨severity, l.code.map Code.name, l.rule.map Prod.snd, l.message⟩ := by
  rw [coded?, Line.writeCoded]
  cases hk : l.code with
  | some k =>
      have hcode : code? (k.write ++ l.writeMessage) =
          some (k.name, k.mark ++ l.writeMessage) := by
        refine code?_eq_some_iff.mpr ⟨h.code k hk, if k.colon then [':'] else [], ' ', ?_, rfl, ?_⟩
        · split
          · exact Or.inr rfl
          · exact Or.inl rfl
        · simp [Code.write]
      have hne : k.mark ++ l.writeMessage ≠ [] := by simp [writeMessage_ne_nil h]
      rw [Option.elim_some, hcode, Option.bind_some]
      dsimp only
      rw [afterBlanks?_self _ _ hne (mark_head h k), marked?_write h hk, Option.some_or,
        Option.map_some]
  | none =>
      have hcode : code? l.writeMessage = none := by
        rw [Option.eq_none_iff_forall_not_mem]
        rintro ⟨code, u⟩ hu
        obtain ⟨hcode, colon, c, hcolon, hc, heq⟩ := code?_eq_some_iff.mp hu
        refine h.no_code hk ⟨code, hcode, ?_⟩
        have hword : firstWord l.message = code ++ colon := by
          rw [← firstWord_writeMessage, heq]
          refine firstWord_run (fun d hd => ?_) (Text.head?_cons_of hc)
          obtain hd | hd := List.mem_append.mp hd
          · exact Text.isBlank_of_isAlphanum (isAlphanum_of_isCode hcode hd)
          · obtain rfl | rfl := hcolon
            · cases hd
            · rw [List.mem_singleton.mp hd]
              rfl
        obtain rfl | rfl := hcolon
        · exact Or.inl (hword.trans (List.append_nil code))
        · exact Or.inr hword
      rw [Option.elim_none, List.nil_append, hcode, Option.bind_none, Option.none_or,
        message?_writeMessage h, Option.map_none]

end

/-! ### What begins with a severity -/

theorem severe_of_token {word : Text}
    (hword : word.map Char.toLower ∈ Severity.knownTokens.map Prod.fst) :
    Severe (word ++ ':' :: u) word u := by
  have halphanum : ∀ c ∈ word, c.isAlphanum = true :=
    fun c hc => Text.isAlphanum_of_isAlpha (isAlpha_of_token hword hc)
  refine ⟨?_, fun c hc => ⟨?_, Text.isBlank_of_isAlphanum (halphanum c hc)⟩, [], by simp, by simp⟩
  · rw [map_foldCase halphanum]
    exact hword
  · rintro rfl
    exact absurd (halphanum ':' hc) (by decide)

/-- A code has digits, and no severity has. -/
theorem not_severe_of_code {k : Code} (hk : IsCode k.name) (rest : Text) :
    ¬ Severe (k.write ++ t) word rest := by
  obtain ⟨letters, digits, -, -, hdigitsne, hdigits, hname⟩ := hk.eq
  obtain ⟨d, ds, rfl⟩ := List.ne_nil_iff_exists_cons.mp hdigitsne
  rw [Code.write, List.append_assoc, List.append_assoc]
  refine not_severe_of_digit (fun c hc => isAlphanum_of_isCode hk hc)
    ⟨d, by simp [hname], hdigits d List.mem_cons_self⟩ ?_ rest
  cases k.colon
  · exact Text.head?_cons_of (Or.inr rfl)
  · exact Text.head?_cons_of (Or.inl rfl)

/-- Behind a text, a blank and a sign that is neither a blank nor a colon do not make it begin
with a severity. -/
theorem severe_of_append {d : Char} {s : Text} (hc : isBlank c = true) (hd : isBlank d = false)
    (hcolon : d ≠ ':') (h : Severe (t ++ c :: d :: s) word u) : ∃ u', Severe t word u' := by
  obtain ⟨gap, hgap, heq⟩ := h.eq
  have hfirst : c ≠ ':' := by
    rintro rfl
    exact absurd hc (by decide)
  have hbehind : ∀ g : Text, (∀ x ∈ g, isBlank x = true) → c :: d :: s ≠ g ++ ':' :: u := by
    intro g hg hbehind
    match g, hg, hbehind with
    | [], _, hbehind => exact hfirst (List.cons.inj hbehind).1
    | [_], _, hbehind => exact hcolon (List.cons.inj (List.cons.inj hbehind).2).1
    | _ :: x :: _, hg, hbehind =>
        obtain rfl : d = x := (List.cons.inj (List.cons.inj hbehind).2).1
        rw [hg d (by simp)] at hd
        cases hd
  rw [List.append_assoc] at heq
  obtain ⟨more, hword, hmore⟩ | ⟨more, ht, hmore⟩ := List.append_eq_append_iff.mp heq
  · cases more with
    | nil => exact absurd hmore (hbehind gap hgap)
    | cons x more =>
        obtain rfl : c = x := (List.cons.inj hmore).1
        have hblank := (h.chars c (by simp [hword])).2
        rw [hc] at hblank
        cases hblank
  · obtain ⟨more', hmore', hrest⟩ | ⟨more', hgap', hrest⟩ := List.append_eq_append_iff.mp hmore
    · cases more' with
      | nil => exact absurd (List.cons.inj hrest).1.symm hfirst
      | cons x more' =>
          obtain rfl : ':' = x := (List.cons.inj hrest).1
          refine ⟨more', h.known, h.chars, gap, hgap, ?_⟩
          rw [ht, hmore', List.append_assoc]
    · refine absurd hrest (hbehind more' fun x hx => hgap x ?_)
      rw [hgap']
      exact List.mem_append_right _ hx

/-! ### From the severity to the whole line -/

section

variable {l : Line} (h : l.Canonical)

include h

theorem not_severe_writeMessage (hseverity : l.severity = none) (hcode : l.code = none)
    (rest : Text) : ¬ Severe l.writeMessage word rest := by
  intro hsevere
  rw [Line.writeMessage] at hsevere
  cases hrule : l.rule with
  | none =>
      rw [hrule, Option.elim_none, List.append_nil] at hsevere
      exact h.no_severity hseverity hcode word rest hsevere
  | some r =>
      obtain ⟨brackets, rule⟩ := r
      have hbehind : ∃ u, Severe l.message word u := by
        rw [hrule, Option.elim_some] at hsevere
        cases brackets with
        | round => exact severe_of_append rfl rfl (by decide) hsevere
        | square => exact severe_of_append rfl rfl (by decide) hsevere
      obtain ⟨u, hu⟩ := hbehind
      exact h.no_severity hseverity hcode word u hu

theorem writeCoded_ne_nil : l.writeCoded ≠ [] := by
  intro hnil
  exact writeMessage_ne_nil h (List.append_eq_nil_iff.mp hnil).2

theorem writeCoded_head : ∀ c ∈ l.writeCoded.head?, isBlank c = false := by
  refine Text.head?_append_of ?_ (writeMessage_head h)
  cases hk : l.code with
  | none => exact nofun
  | some k =>
      have hcode := h.code k hk
      obtain ⟨d, ds, hname, -⟩ := exists_of_isCode hcode
      have hd := Text.isBlank_of_isAlphanum (isAlphanum_of_isCode hcode (c := d) (by simp [hname]))
      rw [Option.elim_some, Code.write, hname]
      exact Text.head?_cons_of hd

/-- The severity is found where it is written, and only there. -/
theorem body?_writeBody : body? l.writeBody =
    some ⟨l.severity, l.code.map Code.name, l.rule.map Prod.snd, l.message⟩ := by
  rw [body?, Line.writeBody]
  cases hs : l.severity with
  | some s =>
      have hsevere : severity? (s ++ ": ".toList ++ l.writeCoded) =
          some (s, ' ' :: l.writeCoded) := by
        rw [List.append_assoc]
        exact severity?_of_severe (severe_of_token (h.severity s hs))
      rw [Option.elim_some, hsevere, Option.bind_some]
      dsimp only
      rw [afterBlanks?_space _ _ (writeCoded_ne_nil h) (writeCoded_head h), coded?_writeCoded h,
        Option.some_or]
  | none =>
      have hsevere : severity? l.writeCoded = none := by
        refine severity?_eq_none fun word u hu => ?_
        rw [Line.writeCoded] at hu
        cases hk : l.code with
        | none =>
            rw [hk, Option.elim_none, List.nil_append] at hu
            exact not_severe_writeMessage h hs hk u hu
        | some k =>
            rw [hk, Option.elim_some] at hu
            exact not_severe_of_code (h.code k hk) u hu
      rw [Option.elim_none, List.nil_append, hsevere, Option.bind_none, Option.none_or,
        coded?_writeCoded h]

theorem rest?_writeBody : rest? (' ' :: l.writeBody) =
    some ⟨l.severity, l.code.map Code.name, l.rule.map Prod.snd, l.message⟩ := by
  have hne : l.writeBody ≠ [] := fun hnil =>
    writeCoded_ne_nil h (List.append_eq_nil_iff.mp hnil).2
  have hhead : ∀ c ∈ l.writeBody.head?, isBlank c = false := by
    refine Text.head?_append_of ?_ (writeCoded_head h)
    cases hs : l.severity with
    | none => exact nofun
    | some s =>
        cases s with
        | nil => exact Text.head?_cons_of rfl
        | cons d s =>
            have halpha := isAlpha_of_token (h.severity _ hs) List.mem_cons_self
            have hd := Text.isBlank_of_isAlphanum (Text.isAlphanum_of_isAlpha halpha)
            exact Text.head?_cons_of hd
  rw [rest?, afterBlanks?_space _ _ hne hhead, body?_writeBody h]

/-- The pieces of a line are the parts that it was written from. -/
theorem pieces?_write : pieces? l.write = some
    { file := l.file, line := Text.decimal l.line.toNat
      column := l.column.map fun n => Text.decimal n.toNat
      severity := l.severity, code := l.code.map Code.name, rule := l.rule.map Prod.snd
      message := l.message } := by
  have hpath : IsPath l.file := ⟨h.file_chars, h.file_name⟩
  have hline := (Text.numeral_decimal l.line).digitRun
  rw [Line.write]
  cases hcolumn : l.column with
  | none =>
      have hnone : column? (':' :: ' ' :: l.writeBody) = none := rfl
      have hpieces := pieces?_location hpath hline (' ' :: l.writeBody)
      rw [hnone, Option.bind_none, Option.none_or, rest?_writeBody h, Option.map_some] at hpieces
      exact hpieces
  | some n =>
      have hsome : column? (':' :: (Text.decimal n.toNat ++ ':' :: ' ' :: l.writeBody)) =
          some (Text.decimal n.toNat, ' ' :: l.writeBody) :=
        column?_eq_some_iff.mpr ⟨(Text.numeral_decimal n).digitRun, rfl⟩
      have hpieces := pieces?_location hpath hline
        (Text.decimal n.toNat ++ ':' :: ' ' :: l.writeBody)
      rw [hsome, Option.bind_some] at hpieces
      dsimp only at hpieces
      rw [rest?_writeBody h, Option.map_some, Option.some_or] at hpieces
      simpa [located] using hpieces

end

/-- **A canonical line is read back as what it was written from.** -/
theorem matcher_write {l : Line} (h : l.Canonical) : matcher.matchLine? l.write = some
    { file := l.file, line := some l.line, column := l.column, endLine := none, endColumn := none
      severity := l.severity, rule := (l.rule.map Prod.snd).or (l.code.map Code.name)
      helpUri := none, message := l.message } := by
  have hfile : Text.trimmed? l.file = some l.file :=
    trimmed?_of_isPath ⟨h.file_chars, h.file_name⟩
  have hmessage : Text.trimmed? l.message = some l.message :=
    Text.trimmed?_of_bare h.message_bare h.message_ne
  have hcolumn : Text.optionalUint32? (l.column.map fun n => Text.decimal n.toNat) =
      some l.column := by
    cases l.column with
    | none => rfl
    | some n => rw [Option.map_some, Text.optionalUint32?, Text.uint32?_decimal, Option.map_some]
  have hseverity : l.severity.bind Text.trimmed? = l.severity := by
    cases hs : l.severity with
    | none => rfl
    | some s =>
        refine Text.trimmed?_of_forall (fun c hc => Text.isBlank_of_isAlphanum
          (Text.isAlphanum_of_isAlpha (isAlpha_of_token (h.severity s hs) hc))) ?_
        rintro rfl
        exact absurd (h.severity [] hs) (by decide)
  have hrule : (l.rule.map Prod.snd).bind Text.trimmed? = l.rule.map Prod.snd := by
    cases hr : l.rule with
    | none => rfl
    | some r =>
        obtain ⟨hne, hchars⟩ := h.rule r hr
        exact Text.trimmed?_of_forall (fun c hc => isBlank_of_isRuleChar (hchars c hc)) hne
  have hcode : (l.code.map Code.name).bind Text.trimmed? = l.code.map Code.name := by
    cases hk : l.code with
    | none => rfl
    | some k => exact trimmed?_of_isCode (h.code k hk)
  show (pieces? l.write).bind Located.lineMatch? = _
  rw [pieces?_write h, Option.bind_some, Located.lineMatch?]
  simp only [hfile, hmessage, hcolumn, hseverity, hrule, hcode, Text.uint32?_decimal,
    Option.bind_eq_bind, Option.bind_some]

/-- A line with a file, a line number and a message, which has a colon but no severity. -/
def plainLine : Line :=
  { file := "cmd/main.go".toList, line := 3, column := none, severity := none, code := none
    message := "undefined: x".toList, rule := none }

theorem canonical_plainLine : plainLine.Canonical where
  file_chars c hc := by
    have hchars : plainLine.file.all (fun c => !isBlank c && c != ':') = true := by decide
    simpa using List.all_eq_true.mp hchars c hc
  file_name := ⟨'c', by decide, rfl⟩
  severity := by decide
  code k hk := by cases hk
  rule := by decide
  message_ne := by decide
  message_bare :=
    { first := Text.head?_cons_of rfl
      last := fun c hc => by
        obtain rfl : 'x' = c := Option.some.inj hc
        rfl }
  message_line := by decide
  no_severity _ _ word rest hsevere := by
    have hnone : severity? plainLine.message = none := by decide
    rw [severity?_of_severe hsevere] at hnone
    cases hnone
  no_code := by
    rintro - ⟨code, hcode, hword⟩
    obtain ⟨c, t, rfl, hc⟩ := exists_of_isCode hcode
    have hsmall : c = 'u' := by
      obtain hword | hword := hword <;> exact (List.cons.inj hword).1.symm
    rw [hsmall] at hc
    exact absurd hc (by decide)
  no_mark k hk := by cases hk
  no_rule _ message rule hruled := by
    have hnone : cutRule? plainLine.message = none := by decide
    rw [cutRule?_of_ruled hruled] at hnone
    cases hnone

/-- A line with all the parts that there can be. -/
def richLine : Line :=
  { file := "src/a.py".toList, line := 12, column := some 5, severity := some "Error".toList
    code := some ⟨"E501".toList, true, true⟩, message := "line too long".toList
    rule := some (.square, "style/E501".toList) }

theorem canonical_richLine : richLine.Canonical where
  file_chars c hc := by
    have hchars : richLine.file.all (fun c => !isBlank c && c != ':') = true := by decide
    simpa using List.all_eq_true.mp hchars c hc
  file_name := ⟨'s', by decide, rfl⟩
  severity := by decide
  code k hk := by
    obtain rfl : _ = k := Option.some.inj hk
    have hletters : "E".toList.all Char.isUpper = true := by decide
    have hdigits : "501".toList.all Char.isDigit = true := by decide
    exact ⟨"E".toList, "501".toList, by decide, List.all_eq_true.mp hletters, by decide,
      List.all_eq_true.mp hdigits, rfl⟩
  rule r hr := by
    obtain rfl : _ = r := Option.some.inj hr
    have hchars : "style/E501".toList.all isRuleChar = true := by decide
    exact ⟨by decide, List.all_eq_true.mp hchars⟩
  message_ne := by decide
  message_bare :=
    { first := Text.head?_cons_of rfl
      last := fun c hc => by
        obtain rfl : 'g' = c := Option.some.inj hc
        rfl }
  message_line := by decide
  no_severity h := by cases h
  no_code h := by cases h
  no_mark k hk hmarked := by
    obtain rfl : _ = k := Option.some.inj hk
    cases hmarked
  no_rule h := by cases h

/-- What is found in a line with all its parts, and in one with as few as there can be. -/
theorem matcher_write_lines :
    (richLine.Canonical ∧
      richLine.write = "src/a.py:12:5: Error: E501: [*] line too long [style/E501]".toList ∧
      matcher.matchLine? richLine.write = some
        { file := "src/a.py".toList, line := some 12, column := some 5, endLine := none
          endColumn := none, severity := some "Error".toList, rule := some "style/E501".toList
          helpUri := none, message := "line too long".toList }) ∧
    plainLine.Canonical ∧ plainLine.write = "cmd/main.go:3: undefined: x".toList ∧
      matcher.matchLine? plainLine.write = some
        { file := "cmd/main.go".toList, line := some 3, column := none, endLine := none
          endColumn := none, severity := none, rule := none, helpUri := none
          message := "undefined: x".toList } :=
  ⟨⟨canonical_richLine, by decide, matcher_write canonical_richLine⟩,
    canonical_plainLine, by decide, matcher_write canonical_plainLine⟩

end LintFindings.Gnu
