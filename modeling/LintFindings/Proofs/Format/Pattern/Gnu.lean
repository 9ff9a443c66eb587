/-
The format of compilers is its pattern.

The pattern is read as an expression (`read?_pattern`), and its groups on the first way through a
line hold the pieces that the readers of the format take from it (`groups_pieces`).  So with every
engine the pattern makes the matcher of the format (`matcher_of_pattern`).
-/
import LintFindings.Proofs.Format.Pattern.Severity

namespace LintFindings.Gnu

open Regex

variable {w : Way} {x : Text → Option Text}

/-! ### The expression -/

/-- The characters of a file. -/
def inFile : CharSet := .compl (.unions [.blank, .single ':'])

/-- The characters of a file that are no digits. -/
def inName : CharSet := .compl (.unions [.blank, .single ':', .range 0x30 0x39])

/-- The file of a line. -/
def filePart : Regex := named "file" (seq [many inFile, .set inName, many inFile])

/-- The expression of the format. -/
def regex : Regex :=
  seq [.look .textStart, filePart, sign ':', named "line" (several .digit),
    maybe [sign ':', named "col" (several .digit)], sign ':', many .blank, severityPart, codePart,
    messagePart, maybe rulePart, .look .textEnd]

theorem read?_pattern : Regex.read? pattern = some regex := by decide +kernel

/-! ### The location -/

/-- What is found behind the line number and the column. -/
def fromRest : Finds :=
  (seq [sign ':', many .blank, severityPart, codePart]).answer? fromMessage

theorem begins_fromRest : Begins fromRest (.single ':') := begins_seq_cons begins_sign

/-- What the readers take of a text with the last colon of the location in front. -/
def afterLocation (g : List (Text × Text)) (t : Text) : Option (Text → Option Text) :=
  (Text.after? [':'] t).bind fun t => (rest? t).map fun b => held (b.taken ++ g)

theorem takes_fromRest : Takes fromRest afterLocation := by
  intro g w hw
  rw [fromRest, answer?_seq_cons, answer?_seq_cons, answer?_seq_cons, answer?_seq_cons,
    answer?_seq_nil, answer?_sign, afterLocation]
  cases hafter : Text.after? [':'] w.rest with
  | none => rfl
  | some t =>
      have hpast : (w.past [':'] t).captured = held (Front.taken ⟨none, none⟩ ++ g) :=
        (Way.captured_past (Text.after?_eq_some_iff.mp hafter)).trans hw
      exact (reads_severity g).blanks hpast

/-- A sign and a number behind it. -/
theorem takes_sign_number {k : Finds}
    {read : List (Text × Text) → Text → Option (Text → Option Text)} (h : Takes k read)
    (group : String) (hk : Begins k (.single ':')) :
    Takes ((seq [sign ':', named group (several .digit)]).answer? k) fun g t =>
      (Text.after? [':'] t).bind fun t =>
        (Text.digitRun? t).bind fun (ds, t) => read (took group (some ds) ++ g) t := by
  have hsign := (h.number group hk (by decide)).text [':']
  rw [List.map_singleton, answer?_seq_cons, answer?_seq_nil] at hsign
  rw [answer?_seq_cons, answer?_seq_cons, answer?_seq_nil]
  exact hsign

/-- What is found behind the line number. -/
def fromColumn : Finds :=
  (maybe [sign ':', named "col" (several .digit)]).answer? fromRest

theorem begins_fromColumn : Begins fromColumn (.single ':') :=
  begins_maybe (begins_seq_cons begins_sign) begins_fromRest

/-- What the readers take of a text behind the line number. -/
def afterLine (g : List (Text × Text)) (t : Text) : Option (Text → Option Text) :=
  ((Text.after? [':'] t).bind fun t => (Text.digitRun? t).bind fun (ds, t) =>
    afterLocation (took "col" (some ds) ++ g) t).or (afterLocation g t)

theorem takes_fromColumn : Takes fromColumn afterLine := by
  intro g w hw
  rw [fromColumn, answer?_maybe, takes_fromRest g w hw,
    takes_sign_number takes_fromRest "col" begins_fromRest g w hw, afterLine]

/-- What is found behind the file. -/
def fromLine : Finds :=
  (seq [sign ':', named "line" (several .digit)]).answer? fromColumn

theorem begins_fromLine : Begins fromLine (.single ':') := begins_seq_cons begins_sign

theorem takes_fromLine : Takes fromLine fun g t =>
    (Text.after? [':'] t).bind fun t => (Text.digitRun? t).bind fun (ds, t) =>
      afterLine (took "line" (some ds) ++ g) t :=
  takes_sign_number takes_fromColumn "line" begins_fromColumn

/-! ### The file -/

section

variable {k : Finds} (hk : Begins k (.single ':')) {c : Char}

theorem mem_inFile : inFile.mem c = (!isBlank c && c != ':') := by
  simp [inFile, bne]

theorem mem_inName : inName.mem c = (!isBlank c && c != ':' && !c.isDigit) := by
  simp [inName, bne, Bool.and_assoc]

/-- What is found behind what stands before the first colon. -/
def behindFile (k : Finds) (w : Way) : Option (Text → Option Text) :=
  k (((w.enter "file".toList).past (w.rest.takeWhile (· != ':'))
    (w.rest.dropWhile (· != ':'))).leave "file".toList)

include hk in
/-- The file ends where a colon is next. -/
theorem isFile_of_filePart (h : filePart.answer? k w = some x) :
    isFile (w.rest.takeWhile (· != ':')) = true ∧ behindFile k w = some x := by
  rw [filePart, named, answer?_group_some, answer?_seq_cons] at h
  obtain ⟨u, v, hu, hchars, h⟩ := exists_of_answer?_run h
  rw [answer?_seq_cons] at h
  obtain ⟨c, v', hv, hc, h⟩ := exists_of_answer?_set h
  rw [answer?_seq_cons, answer?_seq_nil] at h
  obtain ⟨u', t, hv', hchars', h⟩ := exists_of_answer?_run h
  rw [Way.rest_enter] at hu
  rw [Way.rest_past] at hv hv'
  rw [Way.past_past, Way.past_past] at h
  have hrest : w.rest = (u ++ ([c] ++ u')) ++ t := by
    rw [hu, hv, hv']
    simp
  have hfile : ∀ d ∈ u ++ ([c] ++ u'), isBlank d = false ∧ d ≠ ':' := by
    intro d hd
    have hmem : inFile.mem d = true ∨ inName.mem d = true := by
      simp only [List.mem_append, List.mem_singleton] at hd
      obtain hd | rfl | hd := hd
      · exact Or.inl (hchars d hd)
      · exact Or.inr hc
      · exact Or.inl (hchars' d hd)
    simp only [mem_inFile, mem_inName, Bool.and_eq_true, Bool.not_eq_true', bne_iff_ne] at hmem
    exact hmem.elim id fun h => h.1
  have hcolon : ∀ d ∈ u ++ ([c] ++ u'), (d != ':') = true :=
    fun d hd => bne_iff_ne.mpr (hfile d hd).2
  have hstop : ∀ d ∈ t.head?, (d != ':') = false := by
    intro d hd
    by_contra hne
    have hnone : ∀ e ∈ t.head?, (CharSet.single ':').mem e = false := by
      intro e he
      obtain rfl : d = e := Option.some.inj (hd.symm.trans he)
      rw [CharSet.mem_single]
      simpa using hne
    cases (hk (((w.enter _).past _ t).leave _) hnone).symm.trans h
  have hname : c.isDigit = false := by
    rw [mem_inName, Bool.and_eq_true, Bool.not_eq_true'] at hc
    exact hc.2
  rw [behindFile, hrest, Text.takeWhile_run hcolon hstop, Text.dropWhile_run hcolon hstop]
  exact ⟨isFile_of_isPath ⟨hfile, c, by simp, hname⟩, h⟩

theorem isSome_filePart (hfile : isFile (w.rest.takeWhile (· != ':')) = true)
    (h : behindFile k w = some x) : (filePart.answer? k w).isSome = true := by
  have hpath : IsPath (w.rest.takeWhile (· != ':')) := by
    refine isPath_of_isFile hfile fun hcolon => ?_
    exact absurd (List.mem_takeWhile_imp hcolon) (by decide)
  have hrest := (List.takeWhile_append_dropWhile (p := (· != ':')) (l := w.rest)).symm
  rw [behindFile] at h
  generalize w.rest.takeWhile (· != ':') = file at *
  generalize w.rest.dropWhile (· != ':') = t at *
  obtain ⟨c, hc, hname⟩ := hpath.name
  obtain ⟨u, u', rfl⟩ := List.append_of_mem hc
  have hmem : ∀ d ∈ u ++ c :: u', inFile.mem d = true := by
    intro d hd
    rw [mem_inFile, Bool.and_eq_true, Bool.not_eq_true', bne_iff_ne]
    exact hpath.chars d hd
  have hmem' : inName.mem c = true := by
    rw [mem_inName, ← mem_inFile, hmem c hc, hname]
    rfl
  rw [List.append_assoc] at hrest
  rw [filePart, named, answer?_group_some, answer?_seq_cons]
  refine isSome_answer?_run (w := w.enter _) hrest
    (fun d hd => hmem d (List.mem_append_left _ hd)) ?_
  rw [answer?_seq_cons, List.cons_append, answer?_set_cons rfl, if_pos hmem', answer?_seq_cons,
    answer?_seq_nil]
  refine isSome_answer?_run rfl
    (fun d hd => hmem d (List.mem_append_right _ (List.mem_cons_of_mem c hd))) ?_
  rw [Way.past_past, Way.past_past]
  exact Option.isSome_of_eq_some h

include hk in
/-- The file is what stands before the first colon. -/
theorem filePart_eq : filePart.answer? k w =
    if isFile (w.rest.takeWhile (· != ':')) then behindFile k w else none := by
  cases hfound : filePart.answer? k w with
  | some x =>
      obtain ⟨hfile, hx⟩ := isFile_of_filePart hk hfound
      rw [if_pos hfile, hx]
  | none =>
      split
      · rename_i hfile
        refine Eq.symm (Option.eq_none_iff_forall_ne_some.mpr fun x hx => ?_)
        cases hfound ▸ isSome_filePart hfile hx
      · rfl

end

/-! ### The line -/

theorem after?_of_ne {c : Char} (hc : c ≠ ':') (t : Text) : Text.after? [':'] (c :: t) = none := by
  rw [Text.after?, if_neg hc.symm]

/-- A colon is taken off a text. -/
theorem after?_colon {β : Type} (t : Text) (f : Text → Option β) :
    (match t with
      | ':' :: t => f t
      | _ => none) = (Text.after? [':'] t).bind f := by
  split
  · rfl
  · rename_i hcolon
    cases t with
    | nil => rfl
    | cons c t => rw [after?_of_ne fun hc => hcolon t (hc ▸ rfl), Option.bind_none]

theorem column?_eq (t : Text) : column? t =
    (Text.after? [':'] t).bind fun t => (Text.digitRun? t).bind fun (column, t) =>
      (Text.after? [':'] t).map fun t => (column, t) := by
  refine (after?_colon t _).trans (congrArg _ (funext fun t => ?_))
  split
  · rename_i column t hrun
    rw [hrun]
    rfl
  · rename_i hcolon
    cases hrun : Text.digitRun? t with
    | none => rfl
    | some run =>
        obtain ⟨column, t⟩ := run
        cases t with
        | nil => rfl
        | cons c t =>
            have hafter := after?_of_ne (fun hc => hcolon column t (hc ▸ hrun)) t
            exact (congrArg (Option.map (column, ·)) hafter).symm

theorem afterLine_eq (g : List (Text × Text)) (t : Text) : afterLine g t =
    ((column? t).bind fun (column, t) =>
      (rest? t).map fun b => held (b.taken ++ (took "col" (some column) ++ g))).or
        (afterLocation g t) := by
  rw [afterLine, column?_eq]
  simp only [afterLocation, Option.bind_assoc, Option.bind_map, Function.comp_def]

theorem taken_located (file line : Text) (column : Option Text) (b : Body) :
    (located file line column b).taken = b.taken ++
      (took "col" column ++ (took "line" (some line) ++ took "file" (some file))) := by
  simp only [Located.taken, located, Body.taken, Front.taken, List.append_assoc]

/-- What is held of a line of which the parts behind the file and the numbers are left. -/
theorem map_located (file line : Text) (column : Option Text) (t : Text) :
    ((rest? t).map (located file line column)).map (fun p => held p.taken) =
      (rest? t).map fun b =>
        held (b.taken ++ (took "col" column ++ (took "line" (some line) ++
          took "file" (some file)))) := by
  rw [Option.map_map]
  exact Option.map_congr fun b _ => congrArg held (taken_located file line column b)

theorem pieces?_eq (t : Text) : (pieces? t).map (fun p => held p.taken) =
    if isFile (t.takeWhile (· != ':')) then
      (Text.after? [':'] (t.dropWhile (· != ':'))).bind fun u =>
        (Text.digitRun? u).bind fun (ds, u) =>
          afterLine (took "line" (some ds) ++ took "file" (some (t.takeWhile (· != ':')))) u
    else none := by
  rw [pieces?]
  dsimp only
  by_cases hfile : isFile (t.takeWhile (· != ':')) = true
  · rw [if_neg (by rw [hfile]; decide), if_pos hfile]
    refine (congrArg _ (after?_colon _ _)).trans ?_
    rw [Option.map_bind]
    congr 1
    funext u
    rw [Function.comp_apply, Option.map_bind]
    congr 1
    funext found
    obtain ⟨line, v⟩ := found
    rw [Function.comp_apply, Option.map_or, afterLine_eq]
    congr 1
    · rw [Option.map_bind]
      congr 1
      funext found
      obtain ⟨column, u⟩ := found
      exact map_located _ line (some column) u
    · refine (congrArg _ (after?_colon v _)).trans ?_
      rw [Option.map_bind, afterLocation]
      congr 1
      funext u
      exact map_located _ line none u
  · rw [if_pos (by simpa using hfile), if_neg hfile, Option.map_none]

/-- **The groups of the pattern hold the pieces that are taken from a line.** -/
theorem groups_pieces (t : Text) :
    (regex.first? t).map Way.captured = (pieces? t).map fun p => held p.taken := by
  have hfound : (seq [sign ':', named "line" (several .digit),
      maybe [sign ':', named "col" (several .digit)], sign ':', many .blank, severityPart, codePart,
      messagePart, maybe rulePart, .look .textEnd]).answer? (fun w => some w.captured) =
        fromLine := by
    simp only [answer?_seq_cons, answer?_seq_nil, fromLine, fromColumn, fromRest, fromMessage,
      fromRule, atEnd]
  have hstart : (Way.start [] t).captured = held [] := rfl
  have hsplit : (Way.start [] t).rest =
      t.takeWhile (· != ':') ++ t.dropWhile (· != ':') := List.takeWhile_append_dropWhile.symm
  rw [regex, map_first?_of_textStart, answer?_seq_cons, hfound, filePart_eq begins_fromLine,
    pieces?_eq, Way.rest_start, behindFile, Way.rest_start,
    takes_fromLine _ _ (Way.captured_held hstart hsplit "file"), List.append_nil]
  rfl

/-- **With every engine the pattern makes the matcher of the format.** -/
theorem matcher_of_pattern {c : CompiledRegex} (hc : c.FindsFirst regex) :
    Pattern.matcher "gnu".toList c = matcher :=
  matcher_eq_of_groups groups_pieces hc _

/-- The built-in engine is such an engine. -/
theorem matcher?_pattern : Pattern.matcher? "gnu".toList pattern = .ok matcher :=
  matcher?_eq_of_groups groups_pieces read?_pattern (by decide) (by decide +kernel) (by decide) _

end LintFindings.Gnu
