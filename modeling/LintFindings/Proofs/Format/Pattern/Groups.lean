/-
The groups of a format's pattern.

The formats of text lines have patterns, and they have readers that take the pieces of a line
from it without a pattern.  Both say the same of a line if the groups of the pattern hold the
pieces, each in the group of its name (`Located.taken`).  On the way through the pattern the
groups are filled one after the other, so what is held is a list, and it grows in front.

Engines find the first way from the first place that has one (`CompiledRegex.FindsFirst`), and so
does the built-in one.  So with any of them the pattern makes the format's matcher, once the groups
on the first way are the pieces (`matcher_eq_of_groups`).
-/
import LintFindings.Pattern
import LintFindings.Proofs.Regex.Answers
import LintFindings.Proofs.Regex.Search

namespace LintFindings

variable {g g' : List (Text × Text)} {u v name : Text} {o : Option Text} {w : Way}

/-! ### Groups as lists -/

/-- What a group has taken, if it took part. -/
def took (group : String) (o : Option Text) : List (Text × Text) :=
  o.toList.map (group.toList, ·)

/-- What the group of a name holds; what was taken last counts. -/
def held (g : List (Text × Text)) (name : Text) : Option Text := g.lookup name

theorem held_append : held (g ++ g') name = (held g name).or (held g' name) := List.lookup_append

theorem held_took (group : String) :
    held (took group o) name = if name = group.toList then o else none := by
  cases o with
  | none => exact (ite_self none).symm
  | some u =>
      rw [held, took, Option.toList_some, List.map_singleton, List.lookup_cons]
      by_cases h : name = group.toList
      · simp [h]
      · rw [if_neg h, show (name == group.toList) = false by simpa using h]
        rfl

/-- A group holds what is taken between its begin and its end. -/
theorem Way.captured_held (hw : w.captured = held g) (h : w.rest = u ++ v) (group : String) :
    (((w.enter group.toList).past u v).leave group.toList).captured =
      held (took group (some u) ++ g) := by
  funext name
  rw [Way.captured_group h, hw, Function.update_apply, held_append, held_took]
  by_cases hname : name = group.toList <;> simp [hname]

/-! ### Parts of a pattern -/

/-- What a part of a pattern finds, together with all that is behind it. -/
abbrev Finds := Way → Option (Text → Option Text)

/-- A part of a pattern finds what a reader takes of the text ahead; what the groups hold
already is handed on. -/
def Takes (k : Finds) (read : List (Text × Text) → Text → Option (Text → Option Text)) : Prop :=
  ∀ g w, w.captured = held g → k w = read g w.rest

section

open Regex

variable {k : Finds} {read : List (Text × Text) → Text → Option (Text → Option Text)} {c : Char}

theorem Takes.text (h : Takes k read) (u : Text) : Takes ((seq (u.map sign)).answer? k)
    fun g t => (Text.after? u t).bind (read g) := by
  intro g w hw
  rw [answer?_signs]
  dsimp only
  cases hafter : Text.after? u w.rest with
  | none => rfl
  | some t => exact h g _ ((Way.captured_past (Text.after?_eq_some_iff.mp hafter)).trans hw)

/-- A run of characters in a group is taken whole where none of them is behind it. -/
theorem Takes.run (h : Takes k read) (group : String) {s : CharSet} (hk : Begins k (.single c))
    (hc : s.mem c = false) : Takes ((named group (several s)).answer? k) fun g t =>
      if t.takeWhile s.mem = [] then none
      else read (took group (some (t.takeWhile s.mem)) ++ g) (t.dropWhile s.mem) := by
  intro g w hw
  have hother : ∀ d, s.mem d = true → (CharSet.single c).mem d = false := by
    intro d hd
    rw [CharSet.mem_single, beq_eq_false_iff_ne]
    rintro rfl
    cases hd.symm.trans hc
  have hleave : Begins (fun w' => k (w'.leave group.toList)) (.single c) :=
    fun w hw => hk (w.leave _) hw
  have hrest := (List.takeWhile_append_dropWhile (p := s.mem) (l := w.rest)).symm
  rw [named, answer?_group_some, several, answer?_run_one hleave hother, Way.rest_enter,
    h _ _ (Way.captured_held hw hrest group)]
  rfl

/-- A number in a group is what the readers of numbers take. -/
theorem Takes.number (h : Takes k read) (group : String) (hk : Begins k (.single c))
    (hc : Unicode.isDecimalDigit c = false) : Takes ((named group (several .digit)).answer? k)
      fun g t => (Text.digitRun? t).bind fun (ds, t) => read (took group (some ds) ++ g) t := by
  intro g w hw
  have hmem : CharSet.digit.mem = Unicode.isDecimalDigit := rfl
  rw [h.run group (s := .digit) hk hc g w hw, hmem]
  dsimp only
  rw [Text.digitRun?]
  split
  · rename_i hnil
    rw [hnil]
    rfl
  · rename_i hds
    split
    · rename_i hnil
      exact absurd hnil hds
    · rfl

end

/-! ### The end of a pattern -/

section

open Regex

variable {k : Finds} {t : Text} {x : Text → Option Text} {ends : Option Text → Text → Prop}

/-- What is found at the end of a pattern: what the groups hold, if nothing is left. -/
def atEnd : Finds := (seq [.look .textEnd]).answer? fun w => some w.captured

theorem atEnd_nil (hw : w.captured = held g) (h : w.rest = []) : atEnd w = some (held g) := by
  rw [atEnd, answer?_seq_cons, answer?_look, h, answer?_seq_nil, hw]
  rfl

theorem rest_of_atEnd (h : atEnd w = some x) : w.rest = [] := by
  rw [atEnd, answer?_seq_cons, answer?_look] at h
  cases ht : w.rest with
  | nil => rfl
  | cons c t =>
      rw [ht] at h
      cases h

/-- The message of a line. -/
def messagePart : Regex := named "message" (.loop 1 none false (.set (.allBut ['\n'])))

theorem mem_inMessage {c : Char} : (CharSet.allBut ['\n']).mem c = true ↔ c ≠ '\n' := by
  simp [CharSet.allBut]

/-- Behind the message there is a rule, if there is one, and nothing else.  `ends` says which texts
are such an end, and of which rule. -/
structure ReadsRule (k : Finds) (ends : Option Text → Text → Prop) : Prop where
  found : ∀ {g w o}, w.captured = held g → ends o w.rest → k w = some (held (took "rule" o ++ g))
  sound : ∀ {w x}, k w = some x → ∃ o, ends o w.rest

section

variable (h : ReadsRule k ends) (hw : w.captured = held g)

include h hw

theorem ReadsRule.isSome_message_iff : (messagePart.answer? k w).isSome = true ↔
    ∃ u v o, w.rest = u ++ v ∧ u ≠ [] ∧ '\n' ∉ u ∧ ends o v := by
  rw [messagePart, named, answer?_group_some]
  constructor
  · intro hsome
    obtain ⟨x, hx⟩ := Option.isSome_iff_exists.mp hsome
    obtain ⟨u, v, hrest, hne, hu, hx⟩ := exists_of_answer?_run_one hx
    obtain ⟨o, ho⟩ := h.sound hx
    exact ⟨u, v, o, hrest, hne, fun hline => mem_inMessage.mp (hu _ hline) rfl, ho⟩
  · rintro ⟨u, v, o, hrest, hne, hu, ho⟩
    refine isSome_answer?_run_one (w := w.enter _) hrest hne (fun c hc => ?_) ?_
    · exact mem_inMessage.mpr fun hline => hu (hline ▸ hc)
    · exact Option.isSome_of_eq_some (h.found (Way.captured_held hw hrest "message") ho)

theorem ReadsRule.message_eq_none
    (hnone : ∀ u v o, w.rest = u ++ v → u ≠ [] → ends o v → '\n' ∈ u) :
    messagePart.answer? k w = none := by
  rw [← Option.not_isSome_iff_eq_none, h.isSome_message_iff hw]
  rintro ⟨u, v, o, hrest, hne, hline, ho⟩
  exact hline (hnone u v o hrest hne ho)

/-- The message ends where a rule or the end of the line is behind it first. -/
theorem ReadsRule.message_eq_some (hrest : w.rest = u ++ v) (hne : u ≠ []) (hu : '\n' ∉ u)
    (ho : ends o v) (hless : ∀ a b o, u = a ++ b → a ≠ [] → b ≠ [] → ¬ ends o (b ++ v)) :
    messagePart.answer? k w =
      some (held (took "rule" o ++ (took "message" (some u) ++ g))) := by
  obtain ⟨c, u, rfl⟩ := List.ne_nil_iff_exists_cons.mp hne
  have hchars : ∀ d ∈ c :: u, (CharSet.allBut ['\n']).mem d = true :=
    fun d hd => mem_inMessage.mpr fun hline => hu (hline ▸ hd)
  have hfound := h.found (Way.captured_held hw hrest "message") ho
  rw [messagePart, named, answer?_group_some, answer?_loop_one,
    answer?_set_cons (w := w.enter "message".toList) (t := u ++ v) hrest,
    if_pos (hchars c List.mem_cons_self),
    answer?_lazy (u := u) (v := v) rfl (fun d hd => hchars d (List.mem_cons_of_mem c hd)),
    Way.past_past]
  · exact hfound
  · intro a b hab hb
    rw [Option.eq_none_iff_forall_ne_some]
    intro x hx
    obtain ⟨o, ho⟩ := h.sound hx
    exact hless (c :: a) b o (congrArg (c :: ·) hab) (List.cons_ne_nil c a) hb ho
  · rw [Way.past_past]
    exact Or.inl (Option.isSome_of_eq_some hfound)

end

end

/-! ### The pieces of a line -/

namespace Located

/-- The pieces of a line by the names of their groups. -/
def taken (p : Located) : List (Text × Text) :=
  took "rule" p.rule ++ took "message" (some p.message) ++ took "code" p.code ++
    took "severity" p.severity ++ took "col" p.column ++ took "line" (some p.line) ++
    took "file" (some p.file)

/-- A pattern whose groups hold the pieces makes the match of the pieces. -/
theorem lineMatch?_held (p : Located) : Pattern.lineMatch? (held p.taken) = p.lineMatch? := by
  obtain ⟨file, line, column, severity, code, rule, message⟩ := p
  generalize hg : held (taken _) = groups
  have hgroups : groups "file".toList = some file ∧ groups "message".toList = some message ∧
      groups "line".toList = some line ∧ groups "col".toList = column ∧
      groups "column".toList = none ∧ groups "end_line".toList = none ∧
      groups "end_col".toList = none ∧ groups "end_column".toList = none ∧
      groups "severity".toList = severity ∧ groups "rule".toList = rule ∧
      groups "code".toList = code := by
    subst hg
    simp [taken, held_append, held_took]
  obtain ⟨hfile, hmessage, hline, hcol, hcolumn, hendLine, hendCol, hendColumn, hseverity, hrule,
    hcode⟩ := hgroups
  simp only [Pattern.lineMatch?, Pattern.group?, Pattern.number?, hfile, hmessage, hline, hcol,
    hcolumn, hendLine, hendCol, hendColumn, hseverity, hrule, hcode, lineMatch?]
  cases hf : Text.trimmed? file <;> cases hm : Text.trimmed? message <;>
    cases hn : Text.uint32? line <;> cases hk : Text.optionalUint32? column <;>
    simp [Text.optionalUint32?, hf, hm, hn]

end Located

/-! ### Engines -/

section

variable {r : Regex} {pieces? : Text → Option Located}

/-- **With every engine a pattern makes the matcher of its format**, if its groups on the first way
hold the pieces of the line. -/
theorem matcher_eq_of_groups {c : CompiledRegex}
    (hr : ∀ t, (r.first? t).map Way.captured = (pieces? t).map fun p => held p.taken)
    (hc : c.FindsFirst r) (name : Text) :
    Pattern.matcher name c = ⟨name, fun t => pieces? t >>= Located.lineMatch?⟩ := by
  refine congrArg (Matcher.mk name) (funext fun t => ?_)
  rw [captures?_of_findsFirst hc, hr]
  cases pieces? t with
  | none => rfl
  | some p => exact p.lineMatch?_held

/-- With the built-in engine so does a pattern that it reads and has room for. -/
theorem matcher?_eq_of_groups {pattern : Text}
    (hr : ∀ t, (r.first? t).map Way.captured = (pieces? t).map fun p => held p.taken)
    (hread : Regex.read? pattern = some r) (hadvances : r.Advances)
    (hweight : r.weight ≤ Regex.maxWeight)
    (hgroups : ∀ group ∈ Pattern.requiredGroups, group ∈ r.groupNames) (name : Text) :
    Pattern.matcher? name pattern = .ok ⟨name, fun t => pieces? t >>= Located.lineMatch?⟩ := by
  have hcompile : RegexEngine.builtin.compile? pattern = .ok (Program.ofRegex r).compiled := by
    rw [RegexEngine.builtin]
    dsimp only
    rw [hread]
    exact if_neg hweight.not_gt
  have hnone : (Pattern.requiredGroups.find? fun group =>
      !(Program.ofRegex r).compiled.groupNames.contains group) = none := by
    refine List.find?_eq_none.mpr fun group hgroup => ?_
    have hmem : group ∈ (Program.ofRegex r).compiled.groupNames := hgroups group hgroup
    simp [hmem]
  have hcompiled : Pattern.compile name pattern = .ok (Program.ofRegex r).compiled := by
    rw [Pattern.compile, hcompile]
    dsimp only
    rw [hnone]
  rw [Pattern.matcher?, hcompiled]
  exact congrArg Except.ok (matcher_eq_of_groups hr (Regex.findsFirst_ofRegex hread hadvances) name)

end

end LintFindings
