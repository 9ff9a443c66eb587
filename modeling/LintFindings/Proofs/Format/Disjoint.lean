/-
Which lines two formats share.

The text formats part at the first colon of a line: behind it, the format of compilers
has a digit and the compact format a blank (`gnu_or_compact`).  A line with a diagnostic
is an object, and its first colon stands behind the name of the first member unless that
name has a colon of its own.  If it has none, a value follows the colon, and neither
format goes on like one: a row of digits in a value is not followed by a further colon,
and no value begins with the word `line`.

So at most one format recognizes a line, and the order in which the formats are tried
does not matter, as long as no line holds an object whose first member has a colon in
its name (`disjoint_of_plainName`).  With such a name the formats do overlap: a
location inside it is taken for the location of the line (`overlap_locationNamed`).
-/
import LintFindings.Proofs.Format.Gnu
import LintFindings.Proofs.Json.FirstMember
import LintFindings.Proofs.Report.Lines

namespace LintFindings

/-- What is read as a diagnostic is an object in which everything is sound. -/
theorem Diagnostic.ofLine?_eq_some {t : Text} {d : Diagnostic} (h : Diagnostic.ofLine? t = some d) :
    ∃ u v, t = '{' :: u ∧ Json.read? t = some v ∧ v.isSound = true ∧
      (Diagnostic.ofEnvelope? v).or (Diagnostic.ofJson? v) = some d := by
  unfold Diagnostic.ofLine? at h
  split at h
  · cases h
  · rename_i hhead
    obtain ⟨v, hv, h⟩ := Option.bind_eq_some_iff.mp h
    split at h
    · rename_i hgood
      obtain ⟨u, hu⟩ := List.head?_eq_some_iff.mp (not_not.mp hhead)
      exact ⟨u, v, hu, hv, (Bool.and_eq_true _ _ ▸ hgood).2, h⟩
    · cases h

namespace Format

variable {f g : Format} {t : Text}

/-- A line that a format recognizes. -/
def Accepts (f : Format) (t : Text) : Prop := (f.matcher.matchLine? t).isSome

instance (f : Format) (t : Text) : Decidable (f.Accepts t) :=
  inferInstanceAs (Decidable ((f.matcher.matchLine? t).isSome = true))

/-! ### The first colon of a line -/

/-- Behind the first colon of a compiler's line there are digits and then a further colon. -/
theorem colon_of_gnu (h : gnu.Accepts t) :
    ∃ d u, t.dropWhile (· != ':') = ':' :: d :: u ∧ Unicode.isDecimalDigit d = true ∧
      ((d :: u).dropWhile Unicode.isDecimalDigit).head? = some ':' := by
  obtain ⟨m, hm⟩ := Option.isSome_iff_exists.mp h
  obtain ⟨p, hp, -⟩ := Option.bind_eq_some_iff.mp hm
  obtain ⟨file, line, u, hfile, hline, rfl⟩ := Gnu.exists_colon_of_pieces? hp
  obtain ⟨d, ds, rfl⟩ := List.ne_nil_iff_exists_cons.mp hline.ne
  refine ⟨d, ds ++ ':' :: u, ?_, hline.digits d List.mem_cons_self, ?_⟩
  · exact Text.dropWhile_run hfile.ne_colon (Text.head?_cons_of rfl)
  · rw [← List.cons_append, Text.dropWhile_run hline.digits (Text.head?_cons_of rfl)]
    rfl

/-- Behind the first colon of a compact line there is a word. -/
theorem colon_of_compact (h : compact.Accepts t) :
    ∃ u, t.dropWhile (· != ':') = ": line ".toList ++ u := by
  obtain ⟨m, hm⟩ := Option.isSome_iff_exists.mp h
  obtain ⟨p, hp, -⟩ := Option.bind_eq_some_iff.mp hm
  rw [Compact.pieces?] at hp
  split at hp
  · cases hp
  · obtain ⟨u, hu, -⟩ := Option.bind_eq_some_iff.mp hp
    exact ⟨u, Text.after?_eq_some_iff.mp hu⟩

theorem not_gnu_and_compact : ¬ (gnu.Accepts t ∧ compact.Accepts t) := by
  rintro ⟨hgnu, hcompact⟩
  obtain ⟨d, u, hu, hd, -⟩ := colon_of_gnu hgnu
  obtain ⟨w, hw⟩ := colon_of_compact hcompact
  rw [hu] at hw
  have hblank : d = ' ' := (List.cons.inj (List.cons.inj hw).2).1
  rw [hblank] at hd
  exact absurd hd (by decide)

/-! ### Lines with a diagnostic -/

/-- The name of the first member of the object that a text is. -/
def firstName? (t : Text) : Option Text :=
  match Json.read? t with
  | some (.object ((some name, _) :: _)) => some name
  | _ => none

/-- An object whose first member has a colon in its name. -/
def ColonInFirstName (t : Text) : Prop := ∃ name ∈ firstName? t, ':' ∈ name

instance (t : Text) : Decidable (ColonInFirstName t) :=
  decidable_of_iff ((firstName? t).any (·.contains ':') = true)
    (by simp [ColonInFirstName, Option.any_eq_true])

/-- Behind the first colon of a diagnostic's line, if it is that of a name, there is a value
and then a comma or a closing brace. -/
theorem colon_of_diagnostic (h : diagnostic.Accepts t) (hname : ¬ ColonInFirstName t) :
    ∃ u fuel v rest, t.dropWhile (· != ':') = ':' :: u ∧
      Json.readValue fuel u = some (v, rest) ∧
      ((Json.skipGap rest).head? = some ',' ∨ (Json.skipGap rest).head? = some '}') := by
  obtain ⟨m, hm⟩ := Option.isSome_iff_exists.mp h
  obtain ⟨d, hd, -⟩ := Option.bind_eq_some_iff.mp hm
  obtain ⟨u, v, hu, hread, hsound, hread'⟩ := Diagnostic.ofLine?_eq_some hd
  obtain ⟨⟨v', rest⟩, hvalue, hrest⟩ := Option.bind_eq_some_iff.mp hread
  obtain rfl : v' = v := by
    dsimp only at hrest
    split at hrest
    · exact Option.some.inj hrest
    · cases hrest
  rw [hu] at hvalue
  rcases Json.readValue_brace_inv hvalue with rfl | ⟨name, w, ms, rfl, hmember⟩
  · cases hread'
  · obtain ⟨s, rfl⟩ : ∃ s, name = some s := by
      rw [Json.isSound, Json.isSoundMembers] at hsound
      simp only [Bool.and_eq_true] at hsound
      exact Option.isSome_iff_exists.mp hsound.1.1
    obtain ⟨front, u', fuel, x, rest', hsplit, hcolon, hvalue', hend⟩ := hmember
    have hplain : ':' ∉ front := by
      intro hmem
      have hfirst : firstName? t = some s := by simp only [firstName?, hread]
      exact hname ⟨s, hfirst, hcolon s rfl hmem⟩
    refine ⟨u', fuel, x, rest', ?_, hvalue', hend⟩
    rw [hu, hsplit]
    refine Text.dropWhile_run ?_ (by simp)
    intro c hc
    rw [bne_iff_ne]
    rintro rfl
    exact hplain hc

theorem colonInFirstName_of_gnu (hgnu : gnu.Accepts t) (h : diagnostic.Accepts t) :
    ColonInFirstName t := by
  by_contra hname
  obtain ⟨u, fuel, v, rest, hu, hvalue, hend⟩ := colon_of_diagnostic h hname
  obtain ⟨d, u', hu', hd, hcolon⟩ := colon_of_gnu hgnu
  rw [hu, List.cons.injEq] at hu'
  rw [hu'.2] at hvalue
  exact Json.head?_after_digits hd hvalue hend hcolon

/-- No value begins with the word of a compact line. -/
theorem readValue_line (fuel : Nat) (u : Text) :
    Json.readValue fuel (" line ".toList ++ u) = none := by
  cases fuel <;> rfl

theorem colonInFirstName_of_compact (hcompact : compact.Accepts t) (h : diagnostic.Accepts t) :
    ColonInFirstName t := by
  by_contra hname
  obtain ⟨u, fuel, v, rest, hu, hvalue, -⟩ := colon_of_diagnostic h hname
  obtain ⟨w, hw⟩ := colon_of_compact hcompact
  have hline : u = " line ".toList ++ w := (List.cons.inj (hu.symm.trans hw)).2
  rw [hline, readValue_line] at hvalue
  cases hvalue

/-- **At most one format recognizes a line**, but for one kind of lines. -/
theorem accepts_unique (hname : ¬ ColonInFirstName t) (hf : f.Accepts t) (hg : g.Accepts t) :
    f = g := by
  cases f <;> cases g
  case gnu.gnu | compact.compact | diagnostic.diagnostic => rfl
  case gnu.compact => exact absurd ⟨hf, hg⟩ not_gnu_and_compact
  case compact.gnu => exact absurd ⟨hg, hf⟩ not_gnu_and_compact
  case gnu.diagnostic => exact absurd (colonInFirstName_of_gnu hf hg) hname
  case diagnostic.gnu => exact absurd (colonInFirstName_of_gnu hg hf) hname
  case compact.diagnostic => exact absurd (colonInFirstName_of_compact hf hg) hname
  case diagnostic.compact => exact absurd (colonInFirstName_of_compact hg hf) hname

/-! ### The order of the formats -/

/-- Where one format at most recognizes a line, all orders of the formats find its match. -/
theorem findSome?_matchLine? {formats : List Format} (hall : ∀ f, f ∈ formats)
    (hname : ¬ ColonInFirstName t) (m : LineMatch) :
    formats.findSome? (fun f => f.matcher.matchLine? t) = some m ↔
      ∃ f : Format, f.matcher.matchLine? t = some m := by
  constructor
  · intro h
    obtain ⟨f, -, hf⟩ := List.exists_of_findSome?_eq_some h
    exact ⟨f, hf⟩
  · rintro ⟨f, hf⟩
    have hsome : (formats.findSome? fun f => f.matcher.matchLine? t).isSome := by
      rw [List.findSome?_isSome_iff]
      exact ⟨f, hall f, by simp [hf]⟩
    obtain ⟨m', hm'⟩ := Option.isSome_iff_exists.mp hsome
    obtain ⟨g, -, hg⟩ := List.exists_of_findSome?_eq_some hm'
    obtain rfl : f = g :=
      accepts_unique hname (by simp [Accepts, hf]) (by simp [Accepts, hg])
    rw [hm', ← hg, hf]

theorem mem_all (f : Format) : f ∈ all := by cases f <;> decide

/-- A report reader with some formats in some order. -/
def readerOf (formats : List Format) (severities : SeverityTable) (fallback : Bool) :
    ReportReader :=
  ⟨formats.map matcher, severities, fallback⟩

theorem matchLine?_of_perm {formats : List Format} (hperm : formats.Perm all)
    (hname : ¬ ColonInFirstName t) (severities : SeverityTable) (fallback : Bool) :
    (readerOf formats severities fallback).matchLine? t
      = (readerOf all severities fallback).matchLine? t := by
  rw [ReportReader.matchLine?, ReportReader.matchLine?, readerOf, readerOf, List.findSome?_map,
    List.findSome?_map]
  apply Option.ext
  intro m
  have hall : ∀ f, f ∈ formats := fun f => hperm.mem_iff.mpr (mem_all f)
  exact (findSome?_matchLine? hall hname m).trans (findSome?_matchLine? mem_all hname m).symm

/-- **The formats share no lines but objects whose first member has a colon in its name.**  The
text formats never share one.  Without such objects, the order of the formats is all one. -/
theorem disjoint_of_plainName {formats : List Format} (hperm : formats.Perm all) {report : Text}
    (hnames : ∀ line ∈ ReportReader.shownLines report, ¬ ColonInFirstName line)
    (severities : SeverityTable) (fallback : Bool) (artifact : Text) :
    (∀ t, ¬ (gnu.Accepts t ∧ compact.Accepts t)) ∧
    (∀ t, ¬ ColonInFirstName t → ∀ f g : Format, f.Accepts t → g.Accepts t → f = g) ∧
    (readerOf formats severities fallback).read report artifact
      = (readerOf all severities fallback).read report artifact := by
  refine ⟨fun t => not_gnu_and_compact, fun t hname f g => accepts_unique hname, ?_⟩
  have hlines : ∀ line ∈ ReportReader.shownLines report,
      (readerOf formats severities fallback).matchLine? line
        = (readerOf all severities fallback).matchLine? line :=
    fun line hline => matchLine?_of_perm hperm (hnames line hline) severities fallback
  exact ReportReader.read_congr hlines rfl rfl artifact

/-- A line for each format, and the formats in another order. -/
theorem disjoint_of_plainName_mixed :
    let line := "\x7b\"message\":\"m\",\"level\":\"error\",\"spans\":".toList ++
      "[\x7b\"file_name\":\"f\",\"line_start\":1,\"column_start\":1\x7d]\x7d".toList
    let report := "a.c:3:7: bad\nb.js: line 1, col 2, Error - worse\n".toList ++ line
    ¬ ColonInFirstName line ∧ diagnostic.Accepts line ∧ ¬ gnu.Accepts line ∧
      (readerOf [diagnostic, compact, gnu] .plain true).read report []
        = (readerOf all .plain true).read report [] := by
  intro line report
  have hname : ¬ ColonInFirstName line := by decide +kernel
  have haccepts : diagnostic.Accepts line := by decide +kernel
  have hnames : ∀ line ∈ ReportReader.shownLines report, ¬ ColonInFirstName line := by
    decide +kernel
  have hperm : [diagnostic, compact, gnu].Perm all := by decide
  obtain ⟨-, hunique, horder⟩ := disjoint_of_plainName hperm hnames .plain true []
  refine ⟨hname, haccepts, ?_, ?_⟩
  · intro hgnu
    exact absurd (hunique line hname gnu diagnostic hgnu haccepts) (by decide)
  · exact horder

/-- A diagnostic behind a member that is no part of it and has a location for its name. -/
def locationNamed : Text :=
  "\x7b\"a:1: x\":0,\"message\":\"m\",\"level\":\"error\",\"spans\":".toList ++
    "[\x7b\"file_name\":\"f\",\"line_start\":1,\"column_start\":1\x7d]\x7d".toList

/-- Two formats recognize the line, and each makes a finding of its own of it. -/
theorem overlap_locationNamed :
    Text.trim locationNamed = locationNamed ∧ gnu.Accepts locationNamed ∧
      diagnostic.Accepts locationNamed ∧
      (readerOf [diagnostic, gnu, compact] .plain true).read locationNamed []
        ≠ (readerOf all .plain true).read locationNamed [] := by
  decide +kernel

end Format

end LintFindings
