/-
Diagnostics are read whatever their spelling.

A diagnostic is a record, and so are its code, its spans and its children.  What
an object has to have in order to show one is said by relations between values
and data: `ShowsSpan`, `ShowsRemark`, `ShowsCode` and `Shows`.  They ask which
members there are, each of the known ones once, and leave open where they stand,
how their texts are spelled and what else the object has.  An object that
`Wraps` a diagnostic is an envelope around it.

An envelope is tried first.  A diagnostic without one is no envelope, as its
message is a text and no object (`ofEnvelope?_of_shows`), whatever other members
it has.
-/
import LintFindings.Format.Diagnostic
import LintFindings.Proofs.Json.Records
import LintFindings.Proofs.Text.Lines

namespace LintFindings.Diagnostic

open Json (Once Has HasOptional HasDefaulted ShowsList)

variable {v : Json} {d : Diagnostic} {fields : List (Text × Json)} {t : Text}

/-! ### What an object shows -/

/-- A string shows its text. -/
def ShowsText (v : Json) (t : Text) : Prop := v = .text t

/-- A number without sign, fraction and exponent shows a position. -/
def ShowsPosition (v : Json) (n : UInt32) : Prop := v = .nat n.toNat

/-- A truth value shows itself. -/
def ShowsBool (v : Json) (b : Bool) : Prop := v = .bool b

/-- The members of a span. -/
structure SpanFields (fields : List (Text × Json)) (s : Span) : Prop where
  once : Once ["file_name", "line_start", "column_start", "line_end", "column_end",
    "is_primary"] fields
  fileName : Has ShowsText fields "file_name" s.fileName
  lineStart : Has ShowsPosition fields "line_start" s.lineStart
  columnStart : Has ShowsPosition fields "column_start" s.columnStart
  lineEnd : HasOptional ShowsPosition fields "line_end" s.lineEnd
  columnEnd : HasOptional ShowsPosition fields "column_end" s.columnEnd
  isPrimary : HasDefaulted ShowsBool fields "is_primary" false s.isPrimary

/-- An object shows a span. -/
def ShowsSpan (v : Json) (s : Span) : Prop := ∃ fields, v = .record fields ∧ SpanFields fields s

/-- The members of a remark. -/
structure RemarkFields (fields : List (Text × Json)) (r : Remark) : Prop where
  once : Once ["message", "level"] fields
  message : Has ShowsText fields "message" r.message
  level : Has ShowsText fields "level" r.level

/-- An object shows a remark. -/
def ShowsRemark (v : Json) (r : Remark) : Prop :=
  ∃ fields, v = .record fields ∧ RemarkFields fields r

/-- An object shows a code. -/
def ShowsCode (v : Json) (code : Text) : Prop :=
  ∃ fields, v = .record fields ∧ Once ["code"] fields ∧ Has ShowsText fields "code" code

/-- The members of a diagnostic. -/
structure Fields (fields : List (Text × Json)) (d : Diagnostic) : Prop where
  once : Once ["message", "level", "code", "spans", "children"] fields
  message : Has ShowsText fields "message" d.message
  level : Has ShowsText fields "level" d.level
  code : HasOptional ShowsCode fields "code" d.code
  spans : HasDefaulted (ShowsList ShowsSpan) fields "spans" [] d.spans
  children : HasDefaulted (ShowsList ShowsRemark) fields "children" [] d.children

/-- An object shows a diagnostic. -/
def Shows (v : Json) (d : Diagnostic) : Prop := ∃ fields, v = .record fields ∧ Fields fields d

/-- The members of an envelope. -/
structure EnvelopeFields (fields : List (Text × Json)) (d : Diagnostic) : Prop where
  once : Once ["reason", "message"] fields
  reason : ∃ reason, Has ShowsText fields "reason" reason
  message : Has Shows fields "message" d

/-- An object is an envelope around a diagnostic. -/
def Wraps (v : Json) (d : Diagnostic) : Prop :=
  ∃ fields, v = .record fields ∧ EnvelopeFields fields d

/-! ### Reading what is shown -/

theorem text?_of_shows {s : Text} (h : ShowsText v s) : v.text? = some s := by
  rw [h, Json.text?_text]

theorem uint32?_of_shows {n : UInt32} (h : ShowsPosition v n) : v.uint32? = some n := by
  rw [h, Json.uint32?_nat]

theorem bool?_of_shows {b : Bool} (h : ShowsBool v b) : v.bool? = some b := by
  rw [h, Json.bool?]

theorem spanOfJson?_of_shows {s : Span} (h : ShowsSpan v s) : spanOfJson? v = some s := by
  obtain ⟨fields, rfl, h⟩ := h
  have hfile := Json.required?_of_has h.once (by simp) (fun _ => text?_of_shows) h.fileName
  have hline := Json.required?_of_has h.once (by simp) (fun _ => uint32?_of_shows) h.lineStart
  have hcolumn := Json.required?_of_has h.once (by simp) (fun _ => uint32?_of_shows) h.columnStart
  have hlineEnd := Json.optional?_of_has (R := ShowsPosition) h.once (by simp)
    (fun _ _ => uint32?_of_shows) rfl h.lineEnd
  have hcolumnEnd := Json.optional?_of_has (R := ShowsPosition) h.once (by simp)
    (fun _ _ => uint32?_of_shows) rfl h.columnEnd
  have hprimary := Json.defaulted?_of_has h.once (by simp) (fun _ => bool?_of_shows) h.isPrimary
  rw [spanOfJson?, Json.record?_of_once h.once]
  simp [hfile, hline, hcolumn, hlineEnd, hcolumnEnd, hprimary]

theorem remarkOfJson?_of_shows {r : Remark} (h : ShowsRemark v r) : remarkOfJson? v = some r := by
  obtain ⟨fields, rfl, h⟩ := h
  have hmessage := Json.required?_of_has h.once (by simp) (fun _ => text?_of_shows) h.message
  have hlevel := Json.required?_of_has h.once (by simp) (fun _ => text?_of_shows) h.level
  rw [remarkOfJson?, Json.record?_of_once h.once]
  simp [hmessage, hlevel]

theorem codeOfJson?_of_shows {code : Text} (h : ShowsCode v code) : codeOfJson? v = some code := by
  obtain ⟨fields, rfl, honce, hcode⟩ := h
  have hread := Json.required?_of_has honce (by simp) (fun _ => text?_of_shows) hcode
  have hrecord := Json.record?_of_once honce 1
  rw [codeOfJson?, show ["code".toList] = ["code"].map String.toList from rfl, hrecord]
  exact hread

theorem ofJson?_of_shows (h : Shows v d) : ofJson? v = some d := by
  obtain ⟨fields, rfl, h⟩ := h
  have hmessage := Json.required?_of_has h.once (by simp) (fun _ => text?_of_shows) h.message
  have hlevel := Json.required?_of_has h.once (by simp) (fun _ => text?_of_shows) h.level
  have hcode := Json.optional?_of_has (R := ShowsCode) h.once (by simp)
    (fun _ _ => codeOfJson?_of_shows) rfl h.code
  have hspans := Json.defaulted?_of_has (R := ShowsList ShowsSpan) h.once (by simp)
    (fun _ => Json.list?_of_shows fun _ _ => spanOfJson?_of_shows) h.spans
  have hchildren := Json.defaulted?_of_has (R := ShowsList ShowsRemark) h.once (by simp)
    (fun _ => Json.list?_of_shows fun _ _ => remarkOfJson?_of_shows) h.children
  rw [ofJson?, Json.record?_of_once h.once]
  simp [hmessage, hlevel, hcode, hspans, hchildren]

theorem ofEnvelope?_of_wraps (h : Wraps v d) : ofEnvelope? v = some d := by
  obtain ⟨fields, rfl, h⟩ := h
  obtain ⟨reason, hreason⟩ := h.reason
  have hreason := Json.required?_of_has h.once (by simp) (fun _ => text?_of_shows) hreason
  have hmessage := Json.required?_of_has h.once (by simp) (fun _ => ofJson?_of_shows) h.message
  rw [ofEnvelope?, Json.record?_of_once h.once]
  simp [hreason, hmessage]

/-- **A diagnostic alone is no envelope**, even if it has a reason among its members. -/
theorem ofEnvelope?_of_shows (h : Shows v d) : ofEnvelope? v = none := by
  obtain ⟨fields, rfl, h⟩ := h
  obtain ⟨w, hw, rfl⟩ := h.message
  have hcount := h.once "message" (by simp)
  rw [Option.eq_none_iff_forall_not_mem]
  intro d' hd'
  obtain ⟨fs, hfs, hd'⟩ := Option.bind_eq_some_iff.mp hd'
  obtain ⟨-, -, hmessage⟩ := Option.bind_eq_some_iff.mp hd'
  rw [Json.eq_known_of_record? hfs, Json.required?,
    Json.field?_known_of_mem hcount (by simp) hw] at hmessage
  cases hmessage

/-! ### Lines -/

/-- A text of a diagnostic, or of an envelope around one, with nothing unsound in it and not
nested too deep. -/
structure SpelledBy (d : Diagnostic) (t : Text) : Prop where
  value : ∃ v, Json.Spells t v ∧ (Shows v d ∨ Wraps v d) ∧ v.isSound = true ∧ v.depth ≤ maxDepth

theorem ofLine?_of_spelledBy (h : d.SpelledBy t) : ofLine? t = some d := by
  obtain ⟨v, hspells, hv, hsound, hdepth⟩ := h.value
  have hhead : t.head? = some '{' := by
    have hrecord : ∃ fields, v = .record fields := by
      obtain ⟨fields, hfields, -⟩ | ⟨fields, hfields, -⟩ := hv
      · exact ⟨fields, hfields⟩
      · exact ⟨fields, hfields⟩
    obtain ⟨fields, rfl⟩ := hrecord
    rw [Json.record] at hspells
    generalize fields.map (fun field => (some field.1, field.2)) = ms at hspells
    cases hspells with
    | emptyObject => rfl
    | object => rfl
  have hread := Json.read?_spells hspells Json.gap_nil
  rw [List.append_nil] at hread
  have hdiagnostic : (ofEnvelope? v).or (ofJson? v) = some d := by
    obtain hshows | hwraps := hv
    · rw [ofEnvelope?_of_shows hshows, ofJson?_of_shows hshows, Option.none_or]
    · rw [ofEnvelope?_of_wraps hwraps, Option.some_or]
  rw [ofLine?, if_neg (not_not.mpr hhead), hread]
  simp [hsound, hdepth, hdiagnostic]

/-! ### What a diagnostic gives -/

/-- A span says where a diagnostic is: it is the first that is marked primary, or the first of
all where none is marked. -/
inductive Main : List Span → Span → Prop
  | primary {before after : List Span} {s : Span} (hs : s.isPrimary = true)
      (hbefore : ∀ s' ∈ before, s'.isPrimary = false) : Main (before ++ s :: after) s
  | first {after : List Span} {s : Span} (hnone : ∀ s' ∈ s :: after, s'.isPrimary = false) :
      Main (s :: after) s

/-- A remark that helps names the first word behind the mark, if its message begins with this. -/
structure Names (r : Remark) (page : Text) : Prop where
  level : r.level = "help".toList
  message : ∃ gap behind, r.message = visitMark ++ (gap ++ (page ++ behind)) ∧
    (∀ c ∈ gap, isBlank c = true) ∧ page ≠ [] ∧ (∀ c ∈ page, isBlank c = false) ∧
    ∀ c ∈ behind.head?, isBlank c = true

/-- The page that the first remark names which names one, if there is such a remark. -/
inductive FirstPage : List Remark → Option Text → Prop
  | named {before after : List Remark} {r : Remark} {page : Text} (hr : Names r page)
      (hbefore : ∀ r' ∈ before, ∀ page', ¬ Names r' page') :
      FirstPage (before ++ r :: after) (some page)
  | none {rs : List Remark} (hnone : ∀ r ∈ rs, ∀ page, ¬ Names r page) : FirstPage rs none

/-- What a line with a diagnostic is matched as: nothing where no span or only a blank file name
says where it is, and otherwise its parts as they are. -/
inductive Gives (d : Diagnostic) : Option LineMatch → Prop
  | noSpan (hspans : d.spans = []) : Gives d none
  | noFile {s : Span} (hs : Main d.spans s) (hblank : ∀ c ∈ s.fileName, isBlank c = true) :
      Gives d none
  | found {s : Span} {page : Option Text} (hs : Main d.spans s)
      (hfile : ∃ c ∈ s.fileName, isBlank c = false) (hpage : FirstPage d.children page) :
      Gives d (some
        { file := s.fileName, line := some s.lineStart, column := some s.columnStart
          endLine := s.lineEnd, endColumn := s.columnEnd, severity := some d.level
          rule := d.code, helpUri := page, message := d.message })

theorem main_of_mainSpan? {s : Span} (h : d.mainSpan? = some s) : Main d.spans s := by
  rw [mainSpan?, Option.or_eq_some_iff] at h
  obtain hprimary | ⟨hnone, hfirst⟩ := h
  · obtain ⟨hs, before, after, hsplit, hbefore⟩ := List.find?_eq_some_iff_append.mp hprimary
    rw [hsplit]
    exact .primary hs fun s' hs' => by simpa using hbefore s' hs'
  · obtain ⟨after, hsplit⟩ := List.head?_eq_some_iff.mp hfirst
    rw [hsplit] at hnone ⊢
    exact .first fun s' hs' => by simpa using List.find?_eq_none.mp hnone s' hs'

theorem mainSpan?_eq_some_iff {s : Span} : d.mainSpan? = some s ↔ Main d.spans s := by
  constructor
  · exact main_of_mainSpan?
  · intro h
    unfold mainSpan?
    generalize d.spans = spans at h
    cases h with
    | @primary before after _ hs hbefore =>
        have hfound : (before ++ s :: after).find? (·.isPrimary) = some s :=
          List.find?_eq_some_iff_append.mpr
            ⟨hs, before, after, rfl, fun s' hs' => by simpa using hbefore s' hs'⟩
        rw [hfound, Option.some_or]
    | @first after _ hnone =>
        have hnothing : (s :: after).find? (·.isPrimary) = none :=
          List.find?_eq_none.mpr fun s' hs' => by simpa using hnone s' hs'
        rw [hnothing, Option.none_or, List.head?_cons]

theorem lineMatch?_eq_some_iff {m : LineMatch} : d.lineMatch? = some m ↔
    ∃ s, Main d.spans s ∧ Text.trim s.fileName ≠ [] ∧
      m =
        { file := s.fileName, line := some s.lineStart, column := some s.columnStart
          endLine := s.lineEnd, endColumn := s.columnEnd, severity := some d.level
          rule := d.code, helpUri := d.helpUri, message := d.message } := by
  constructor
  · intro h
    obtain ⟨s, hs, h⟩ := Option.bind_eq_some_iff.mp h
    obtain ⟨file, hfile, h⟩ := Option.bind_eq_some_iff.mp h
    obtain ⟨rfl, hne⟩ := Text.trimmed?_eq_some_iff.mp hfile
    exact ⟨s, mainSpan?_eq_some_iff.mp hs, hne, (Option.some.inj h).symm⟩
  · rintro ⟨s, hs, hne, rfl⟩
    have hspan := mainSpan?_eq_some_iff.mpr hs
    have hfile := Text.trimmed?_eq_some_iff.mpr ⟨rfl, hne⟩
    exact Option.bind_eq_some_iff.mpr ⟨s, hspan, Option.bind_eq_some_iff.mpr ⟨_, hfile, rfl⟩⟩

theorem page?_eq_some_iff {r : Remark} {page : Text} : Remark.page? r = some page ↔ Names r page := by
  rw [Remark.page?]
  constructor
  · intro h
    split at h
    · rename_i hlevel
      obtain ⟨rest, hrest, hword⟩ := Option.bind_eq_some_iff.mp h
      obtain ⟨gap, behind, rfl, hgap, hne, hpage, hbehind⟩ := Text.words_head?_eq_some_iff.mp hword
      exact ⟨hlevel, gap, behind, Text.after?_eq_some_iff.mp hrest, hgap, hne, hpage, hbehind⟩
    · cases h
  · rintro ⟨hlevel, gap, behind, hmessage, hgap, hne, hpage, hbehind⟩
    rw [if_pos hlevel, Text.after?_eq_some_iff.mpr hmessage, Option.bind_some]
    exact Text.words_head?_eq_some_iff.mpr ⟨gap, behind, rfl, hgap, hne, hpage, hbehind⟩

theorem not_names_of_page? {r : Remark} (h : Remark.page? r = none) (page : Text) : ¬ Names r page := by
  intro hpage
  rw [page?_eq_some_iff.mpr hpage] at h
  cases h

theorem firstPage_helpUri (d : Diagnostic) : FirstPage d.children d.helpUri := by
  cases hpage : d.helpUri with
  | none =>
      exact .none fun r hr => not_names_of_page? (List.findSome?_eq_none_iff.mp hpage r hr)
  | some page =>
      obtain ⟨before, r, after, hsplit, hr, hbefore⟩ := List.findSome?_eq_some_iff.mp hpage
      rw [hsplit]
      exact .named (page?_eq_some_iff.mp hr) fun r' hr' => not_names_of_page? (hbefore r' hr')

theorem gives_lineMatch? (d : Diagnostic) : d.Gives d.lineMatch? := by
  cases hmain : d.mainSpan? with
  | none =>
      have hspans : d.spans = [] := by
        rw [mainSpan?, Option.or_eq_none_iff] at hmain
        exact List.head?_eq_none_iff.mp hmain.2
      rw [lineMatch?, hmain]
      exact .noSpan hspans
  | some s =>
      have hs := main_of_mainSpan? hmain
      cases hname : Text.trimmed? s.fileName with
      | none =>
          rw [lineMatch?, hmain]
          simp only [hname, Option.bind_eq_bind, Option.bind_some, Option.bind_none]
          exact .noFile hs (Text.trim_eq_nil_iff.mp (Text.trimmed?_eq_none_iff.mp hname))
      | some name =>
          have hfile : ∃ c ∈ s.fileName, isBlank c = false := by
            obtain ⟨rfl, hne⟩ := Text.trimmed?_eq_some_iff.mp hname
            by_contra hall
            refine hne (Text.trim_eq_nil_iff.mpr fun c hc => ?_)
            by_contra hblank
            exact hall ⟨c, hc, eq_false_of_ne_true hblank⟩
          rw [lineMatch?, hmain]
          simp only [hname, Option.bind_eq_bind, Option.bind_some]
          exact .found hs hfile (firstPage_helpUri d)

/-- **A diagnostic is matched alike however it is spelled**, and with or without an envelope: what
is found is what its main span, its level, its code, its message and its children say. -/
theorem matcher_spelling (h : d.SpelledBy t) :
    matcher.matchLine? t = d.lineMatch? ∧ d.Gives (matcher.matchLine? t) := by
  have hmatch : matcher.matchLine? t = d.lineMatch? := by
    show (ofLine? t).bind lineMatch? = d.lineMatch?
    rw [ofLine?_of_spelledBy h, Option.bind_some]
  rw [hmatch]
  exact ⟨rfl, d.gives_lineMatch?⟩

/-- A diagnostic with two spans, of which the second is primary. -/
def sample : Diagnostic :=
  { message := "unused".toList, level := "warning".toList, code := some "dead_code".toList
    spans := [⟨"a.rs".toList, 1, 2, none, none, false⟩, ⟨"b.rs".toList, 4, 2, some 5, none, true⟩]
    children := [⟨"for further information visit the book".toList, "help".toList⟩] }

/-- Its spans, one of them with a member that is not known, and one with a null. -/
def sampleSpans : List (List (Text × Json)) :=
  [[("column_start".toList, .nat 2), ("line_start".toList, .nat 1),
    ("file_name".toList, .text "a.rs".toList), ("label".toList, .null)],
   [("is_primary".toList, .bool true), ("file_name".toList, .text "b.rs".toList),
    ("line_start".toList, .nat 4), ("line_end".toList, .nat 5), ("column_start".toList, .nat 2),
    ("column_end".toList, .null)]]

/-- Its code, beside a member that is not known. -/
def sampleCode : List (Text × Json) :=
  [("url".toList, .null), ("code".toList, .text "dead_code".toList)]

/-- Its child. -/
def sampleRemark : List (Text × Json) :=
  [("level".toList, .text "help".toList),
   ("message".toList, .text "for further information visit the book".toList)]

/-- Its members, not in the usual order and with a reason of their own among them. -/
def sampleFields : List (Text × Json) :=
  [("spans".toList, .array (sampleSpans.map .record)), ("level".toList, .text "warning".toList),
   ("reason".toList, .text "none".toList),
   ("code".toList, .record sampleCode), ("children".toList, .array [.record sampleRemark]),
   ("message".toList, .text "unused".toList)]

/-- The members of an envelope around it. -/
def sampleEnvelope : List (Text × Json) :=
  [("message".toList, .record sampleFields), ("success".toList, .bool false),
   ("reason".toList, .text "compiler-message".toList)]

theorem matcher_spelling_envelope :
    sample.SpelledBy (Json.write .compact (.record sampleFields)) ∧
    sample.SpelledBy (Json.write .compact (.record sampleEnvelope)) ∧
    matcher.matchLine? (Json.write .compact (.record sampleEnvelope)) = some
      { file := "b.rs".toList, line := some 4, column := some 2, endLine := some 5
        endColumn := none, severity := some "warning".toList, rule := some "dead_code".toList
        helpUri := some "the".toList, message := "unused".toList } := by
  have hblanks : Json.Layout.compact.AddsBlanks := Json.Layout.addsBlanks_ofPretty false
  have hfields : Json.Spellable (.record sampleFields) := by
    simp [Json.record, Json.Spellable, Json.SpellableMembers, Json.SpellableItems, sampleFields,
      sampleSpans, sampleCode, sampleRemark]
  have henvelope : Json.Spellable (.record sampleEnvelope) := by
    simpa [Json.record, Json.Spellable, Json.SpellableMembers, sampleEnvelope] using hfields
  have hspans : List.Forall₂ ShowsSpan (sampleSpans.map .record) sample.spans := by
    refine .cons ⟨_, rfl, ?_⟩ (.cons ⟨_, rfl, ?_⟩ .nil)
    · exact ⟨by decide, ⟨_, by simp, rfl⟩, ⟨_, by simp, rfl⟩, ⟨_, by simp, rfl⟩,
        Or.inl (by decide), Or.inl (by decide), Or.inr ⟨rfl, by decide⟩⟩
    · exact ⟨by decide, ⟨_, by simp, rfl⟩, ⟨_, by simp, rfl⟩, ⟨_, by simp, rfl⟩,
        ⟨_, by simp, rfl⟩, Or.inr (by simp), Or.inl ⟨_, by simp, rfl⟩⟩
  have hcode : HasOptional ShowsCode sampleFields "code" sample.code :=
    ⟨.record sampleCode, by simp [sampleFields], _, rfl, by decide, _, by simp [sampleCode], rfl⟩
  have hchildren : HasDefaulted (ShowsList ShowsRemark) sampleFields "children" []
      sample.children := by
    refine Or.inl ⟨.array [.record sampleRemark], by simp [sampleFields], _, rfl,
      .cons ⟨sampleRemark, rfl, ?_⟩ .nil⟩
    refine ⟨by decide, ⟨_, ?_, rfl⟩, ⟨_, ?_, rfl⟩⟩ <;> simp [sampleRemark]
  have hshows : Shows (.record sampleFields) sample := by
    refine ⟨sampleFields, rfl, by decide, ⟨_, ?_, rfl⟩, ⟨_, ?_, rfl⟩, hcode,
      Or.inl ⟨_, ?_, _, rfl, hspans⟩, hchildren⟩ <;> simp [sampleFields, sample]
  have hwraps : Wraps (.record sampleEnvelope) sample := by
    refine ⟨sampleEnvelope, rfl, by decide, ⟨"compiler-message".toList, _, ?_, rfl⟩, _, ?_,
      hshows⟩ <;> simp [sampleEnvelope]
  have hsample : sample.SpelledBy (Json.write .compact (.record sampleFields)) :=
    ⟨_, Json.spells_write hblanks hfields, Or.inl hshows, by decide +kernel, by decide +kernel⟩
  have hwrapped : sample.SpelledBy (Json.write .compact (.record sampleEnvelope)) :=
    ⟨_, Json.spells_write hblanks henvelope, Or.inr hwraps, by decide +kernel, by decide +kernel⟩
  exact ⟨hsample, hwrapped, (matcher_spelling hwrapped).1⟩

end LintFindings.Diagnostic
