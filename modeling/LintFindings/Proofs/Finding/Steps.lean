/-
A finding that is built in any number of steps.

The steps may be taken as often as one likes, and with anything for their arguments.  Each
writes fields of its own and looks at no others, but for one: the end of a finding is held against
its beginning.  So as long as a finding is not placed anew once its end is said (`Ordered`),
the last step of each kind overwrites all earlier ones of its kind, and the steps come to the same
as at most four of them (`build_eq_last`).

What four steps leave behind is placed by the rules (`placed_settled`).  Positions that follow
the rules are kept as they are given (`placedAt_of_begun`, `through_of_placed`).  A finding's own
positions do, and its own names are trimmed, so that taking the steps once more with them changes
nothing (`build_own`).
-/
import LintFindings.Proofs.Finding

namespace LintFindings.Finding

variable {f g : Finding} {filePath message : Text} {severity : Severity}

/-! ### Steps -/

/-- A step in which a finding is built. -/
inductive Step where
  | place (line column : Option UInt32)
  | reach (endLine endColumn : Option UInt32)
  | rule (name : Option Text)
  | page (uri : Option Text)
  deriving DecidableEq, Repr

namespace Step

/-- What a step makes of a finding. -/
def apply (f : Finding) : Step → Finding
  | place line column => f.placedAt line column
  | reach endLine endColumn => f.through endLine endColumn
  | rule name => f.withRule name
  | page uri => f.withHelpUri uri

/-- The arguments of a step that places a finding. -/
def place? : Step → Option (Option UInt32 × Option UInt32)
  | place line column => some (line, column)
  | _ => none

/-- The arguments of a step that says where a finding ends. -/
def reach? : Step → Option (Option UInt32 × Option UInt32)
  | reach endLine endColumn => some (endLine, endColumn)
  | _ => none

/-- The argument of a step that names a rule. -/
def rule? : Step → Option (Option Text)
  | rule name => some name
  | _ => none

/-- The argument of a step that names a page. -/
def page? : Step → Option (Option Text)
  | page uri => some uri
  | _ => none

end Step

/-- What steps make of a finding, one after the other. -/
def build (f : Finding) (steps : List Step) : Finding := steps.foldl Step.apply f

/-- No finding is placed once its end is said. -/
def Ordered (steps : List Step) : Prop :=
  steps.Pairwise fun s s' => s.reach?.isSome → s'.place? = none

instance (steps : List Step) : Decidable (Ordered steps) :=
  inferInstanceAs (Decidable (steps.Pairwise fun s s' => s.reach?.isSome → s'.place? = none))

theorem build_concat (f : Finding) (steps : List Step) (s : Step) :
    f.build (steps ++ [s]) = s.apply (f.build steps) := List.foldl_concat ..

/-! ### The last step of each kind -/

/-- The arguments of the last step of a kind. -/
def lastOf {α : Type} (kind? : Step → Option α) (steps : List Step) : Option α :=
  steps.reverse.findSome? kind?

theorem lastOf_concat {α : Type} (kind? : Step → Option α) (steps : List Step) (s : Step) :
    lastOf kind? (steps ++ [s]) = (kind? s).or (lastOf kind? steps) := by
  rw [lastOf, List.reverse_concat, List.findSome?_cons]
  cases kind? s with
  | none => rfl
  | some a => rfl

/-- The arguments of at most one step of each kind. -/
structure Arguments where
  place : Option (Option UInt32 × Option UInt32)
  reach : Option (Option UInt32 × Option UInt32)
  rule : Option (Option Text)
  page : Option (Option Text)
  deriving DecidableEq, Repr

namespace Arguments

/-- The line and the column that a finding begins at; nothing is said by no step. -/
def beginning (a : Arguments) : Option UInt32 × Option UInt32 := a.place.getD (none, none)

/-- The line and the column that a finding ends at. -/
def ending (a : Arguments) : Option UInt32 × Option UInt32 := a.reach.getD (none, none)

/-- The steps that have these arguments. -/
def steps (a : Arguments) : List Step :=
  a.place.toList.map (fun (line, column) => .place line column) ++
    a.reach.toList.map (fun (endLine, endColumn) => .reach endLine endColumn) ++
    a.rule.toList.map .rule ++ a.page.toList.map .page

/-- The arguments after one more step. -/
def after (a : Arguments) : Step → Arguments
  | .place line column => { a with place := some (line, column) }
  | .reach endLine endColumn => { a with reach := some (endLine, endColumn) }
  | .rule name => { a with rule := some name }
  | .page uri => { a with page := some uri }

end Arguments

/-- The arguments of the last step of each kind. -/
def last (steps : List Step) : Arguments :=
  ⟨lastOf Step.place? steps, lastOf Step.reach? steps, lastOf Step.rule? steps,
    lastOf Step.page? steps⟩

theorem last_concat (steps : List Step) (s : Step) :
    last (steps ++ [s]) = (last steps).after s := by
  unfold last
  rw [lastOf_concat, lastOf_concat, lastOf_concat, lastOf_concat]
  cases s <;> rfl

/-- One more step overwrites the one of its kind.  A finding is placed in front of its end, so the
end must not have been said. -/
theorem apply_build (f : Finding) (a : Arguments) (s : Step)
    (h : a.reach.isSome → s.place? = none) :
    s.apply (f.build a.steps) = f.build (a.after s).steps := by
  obtain ⟨place, reach, rule, page⟩ := a
  cases s with
  | place line column =>
      cases reach with
      | some positions => cases h rfl
      | none => cases place <;> cases rule <;> cases page <;> rfl
  | reach endLine endColumn => cases place <;> cases reach <;> cases rule <;> cases page <;> rfl
  | rule name => cases place <;> cases reach <;> cases rule <;> cases page <;> rfl
  | page uri => cases place <;> cases reach <;> cases rule <;> cases page <;> rfl

/-- **Only the last step of each kind counts.** -/
theorem build_eq_last (f : Finding) {steps : List Step} (h : Ordered steps) :
    f.build steps = f.build (last steps).steps := by
  induction steps using List.reverseRecOn with
  | nil => rfl
  | append_singleton steps s ih =>
      obtain ⟨hsteps, -, hs⟩ := List.pairwise_append.mp h
      have hfree : (last steps).reach.isSome → s.place? = none := by
        intro hsome
        obtain ⟨positions, hreach⟩ := Option.isSome_iff_exists.mp hsome
        obtain ⟨s', hs', hkind⟩ := List.exists_of_findSome?_eq_some hreach
        exact hs s' (List.mem_reverse.mp hs') s (List.mem_singleton_self s) (by rw [hkind]; rfl)
      rw [build_concat, ih hsteps, apply_build f _ s hfree, last_concat]

/-- Placed anew, a finding keeps an end that stands before it. -/
example :
    let f := (about [] .note []).build
      [.place (some 1) none, .reach (some 2) none, .place (some 5) none]
    f.line = some 5 ∧ f.endLine = some 2 := by decide

/-! ### What is left behind -/

/-- All four steps, one after the other, and those without arguments with nothing. -/
def Arguments.settle (a : Arguments) (f : Finding) : Finding :=
  (((f.placedAt a.beginning.1 a.beginning.2).through a.ending.1 a.ending.2).withRule
    a.rule.join).withHelpUri a.page.join

/-- A new finding has nothing, so that a step with nothing is as good as none. -/
theorem build_steps (filePath message : Text) (severity : Severity) (a : Arguments) :
    (about filePath severity message).build a.steps
      = a.settle (about filePath severity message) := by
  obtain ⟨place, reach, rule, page⟩ := a
  cases place <;> cases reach <;> cases rule <;> cases page <;> rfl

theorem build_eq_settle (filePath message : Text) (severity : Severity) {steps : List Step}
    (h : Ordered steps) :
    (about filePath severity message).build steps
      = (last steps).settle (about filePath severity message) :=
  (build_eq_last _ h).trans (build_steps ..)

/-- Whatever the four steps are given, the positions that they leave follow the rules. -/
theorem placed_settled (a : Arguments) (f : Finding) : Placed (a.settle f) := by
  have h := placed_through (begun_placedAt f a.beginning.1 a.beginning.2) a.ending.1 a.ending.2
  exact ⟨⟨h.line, h.column⟩, h.endLine, h.endColumn, h.oneLine⟩

/-! ### What is kept as it is given -/

theorem pos_of_one_le {n : UInt32} (h : 1 ≤ n) : 0 < n :=
  UInt32.lt_iff_toNat_lt.mpr (UInt32.le_iff_toNat_le.mp h)

theorem filter_of_forall {number : Option UInt32} {p : UInt32 → Bool}
    (h : ∀ n ∈ number, p n = true) : number.filter p = number := by
  cases number with
  | none => rfl
  | some n => exact Option.filter_eq_some_iff.mpr ⟨rfl, h n rfl⟩

/-- The line and the column that a finding begins at. -/
def beginning (f : Finding) : Option UInt32 × Option UInt32 := (f.line, f.column)

/-- The line and the column that a finding ends at. -/
def ending (f : Finding) : Option UInt32 × Option UInt32 := (f.endLine, f.endColumn)

/-- A sound beginning is taken over as it is. -/
theorem placedAt_of_begun (f : Finding) (h : Begun g) :
    f.placedAt g.line g.column = { f with line := g.line, column := g.column } := by
  have hline : g.line.filter (0 < ·) = g.line := by
    apply filter_of_forall
    intro line hmem
    exact decide_eq_true (pos_of_one_le (h.line line hmem))
  have hcolumn : (if g.line.isSome then g.column.filter (0 < ·) else none) = g.column := by
    cases hc : g.column with
    | none => simp
    | some column =>
        obtain ⟨hone, hsome⟩ := h.column column hc
        simp [hsome, pos_of_one_le hone]
  unfold placedAt
  simp only [hline, hcolumn]

/-- So is an end, by a finding that has the beginning it goes with. -/
theorem through_of_placed (h : Placed g) (hbeginning : f.beginning = g.beginning) :
    f.through g.endLine g.endColumn
      = { f with endLine := g.endLine, endColumn := g.endColumn } := by
  obtain ⟨hline, hcolumn⟩ : f.line = g.line ∧ f.column = g.column := Prod.mk.inj hbeginning
  have hendLine : (g.endLine.filter fun last => f.line.any (· ≤ last)) = g.endLine := by
    apply filter_of_forall
    intro last hmem
    obtain ⟨line, hl, hle⟩ := h.endLine last hmem
    simp [hline, hl, hle]
  have hendColumn : (g.endLine.bind fun last =>
      g.endColumn.filter fun c => 0 < c && f.endColumnFits last c) = g.endColumn := by
    cases hc : g.endColumn with
    | none => simp
    | some column =>
        obtain ⟨hone, hsome⟩ := h.endColumn column hc
        obtain ⟨last, hlast⟩ := Option.isSome_iff_exists.mp hsome
        have hfits : f.endColumnFits last column = true := by
          unfold endColumnFits
          by_cases hsame : g.line = some last
          · rw [hcolumn, Bool.or_eq_true, Option.all_eq_true]
            refine Or.inr ?_
            intro first hfirst
            exact decide_eq_true (h.oneLine (hlast.trans hsame.symm) first hfirst column hc)
          · simp [hline, hsame]
        simp [hlast, pos_of_one_le hone, hfits]
  unfold through
  simp only [hendLine, hendColumn]

theorem beginning_settle {a : Arguments} (f : Finding) (h : Begun g)
    (hbeginning : a.beginning = g.beginning) : (a.settle f).beginning = g.beginning := by
  show (f.placedAt a.beginning.1 a.beginning.2).beginning = g.beginning
  rw [hbeginning]
  show (f.placedAt g.line g.column).beginning = g.beginning
  rw [placedAt_of_begun f h]
  rfl

theorem ending_settle {a : Arguments} (f : Finding) (h : Placed g)
    (hbeginning : a.beginning = g.beginning) (hending : a.ending = g.ending) :
    (a.settle f).ending = g.ending := by
  have hstart : (f.placedAt a.beginning.1 a.beginning.2).beginning = g.beginning :=
    beginning_settle f h.toBegun hbeginning
  show ((f.placedAt a.beginning.1 a.beginning.2).through a.ending.1 a.ending.2).ending = g.ending
  rw [hending]
  show ((f.placedAt a.beginning.1 a.beginning.2).through g.endLine g.endColumn).ending = g.ending
  rw [through_of_placed h hstart]
  rfl

/-- A name that is not blank and has no margins is taken over as it is. -/
theorem trimmed?_of_named {name : Option Text} (h : Named name) :
    name.bind Text.trimmed? = name := by
  cases name with
  | none => rfl
  | some t => exact Text.trimmed?_of_bare (h t rfl).2 (h t rfl).1

/-! ### Steps with what is there already -/

/-- The four steps with the fields of a finding. -/
def own (f : Finding) : List Step :=
  [.place f.line f.column, .reach f.endLine f.endColumn, .rule f.ruleId, .page f.helpUri]

/-- A step with a finding's own fields changes nothing. -/
theorem apply_own (hplaced : Placed f) (hrule : Named f.ruleId) (hpage : Named f.helpUri) :
    ∀ s ∈ f.own, s.apply f = f := by
  intro s hs
  simp only [own, List.mem_cons, List.not_mem_nil, or_false] at hs
  rcases hs with rfl | rfl | rfl | rfl
  · exact placedAt_of_begun f hplaced.toBegun
  · exact through_of_placed hplaced rfl
  · show { f with ruleId := f.ruleId.bind Text.trimmed? } = f
    rw [trimmed?_of_named hrule]
  · show { f with helpUri := f.helpUri.bind Text.trimmed? } = f
    rw [trimmed?_of_named hpage]

/-- Nor do any number of them, in any order. -/
theorem build_own (hplaced : Placed f) (hrule : Named f.ruleId) (hpage : Named f.helpUri)
    {steps : List Step} (h : steps ⊆ f.own) : f.build steps = f := by
  induction steps with
  | nil => rfl
  | cons s steps ih =>
      obtain ⟨hs, hsteps⟩ := List.cons_subset.mp h
      show (s.apply f).build steps = f
      rw [apply_own hplaced hrule hpage s hs, ih hsteps]

/-- **The steps of a finding.**  They leave its file, its severity and its message alone, and what
they make of the rest depends on the last arguments of each kind.  Names are trimmed, the positions
follow the rules, and a beginning or an end that follows them is not touched.  Taking steps again with what the
finding has already changes nothing. -/
theorem build_about (filePath message : Text) (severity : Severity) {steps : List Step}
    (h : Ordered steps) :
    let f := (about filePath severity message).build steps
    (f.filePath = filePath ∧ f.severity = severity ∧ f.message = message) ∧
      (∀ filePath' severity' message' steps', Ordered steps' → last steps' = last steps →
        (about filePath' severity' message').build steps' =
          { f with filePath := filePath', severity := severity', message := message' }) ∧
      (f.ruleId = (last steps).rule.join.bind Text.trimmed? ∧
        f.helpUri = (last steps).page.join.bind Text.trimmed?) ∧
      Placed f ∧
      (∀ g, Begun g → (last steps).beginning = g.beginning → f.beginning = g.beginning) ∧
      (∀ g, Placed g → (last steps).beginning = g.beginning → (last steps).ending = g.ending →
        f.beginning = g.beginning ∧ f.ending = g.ending) ∧
      ∀ again, again ⊆ f.own → f.build again = f := by
  intro f
  have hf : f = (last steps).settle (about filePath severity message) :=
    build_eq_settle filePath message severity h
  have hplaced : Placed f := by
    rw [hf]
    exact placed_settled ..
  have hnames : f.ruleId = (last steps).rule.join.bind Text.trimmed? ∧
      f.helpUri = (last steps).page.join.bind Text.trimmed? := by
    rw [hf]
    exact ⟨rfl, rfl⟩
  refine ⟨?_, ?_, hnames, hplaced, ?_, ?_, ?_⟩
  · rw [hf]
    exact ⟨rfl, rfl, rfl⟩
  · intro filePath' severity' message' steps' h' hsame
    rw [build_eq_settle filePath' message' severity' h', hsame, hf]
    rfl
  · intro g hg hbeginning
    rw [hf]
    exact beginning_settle _ hg hbeginning
  · intro g hg hbeginning hending
    rw [hf]
    exact ⟨beginning_settle _ hg.toBegun hbeginning, ending_settle _ hg hbeginning hending⟩
  · intro again hagain
    refine build_own hplaced ?_ ?_ hagain
    · rw [hnames.1]
      exact named_trimmed? _
    · rw [hnames.2]
      exact named_trimmed? _

/-- A finding that is placed twice, given an end twice, the first one before its line, and named
twice, blank at first. -/
theorem build_about_twice :
    let first := about "a.c".toList .error "bad".toList
    let steps : List Step :=
      [.place (some 0) (some 4), .rule (some " ".toList), .place (some 3) (some 7),
        .reach (some 2) (some 9), .page none, .reach (some 3) (some 9),
        .rule (some " E1 ".toList)]
    let placed : Finding :=
      { first with line := some 3, column := some 7, endLine := some 3, endColumn := some 9 }
    let f := first.build steps
    Ordered steps ∧ Placed placed ∧ f = { placed with ruleId := some "E1".toList } ∧
      (about "b.c".toList .note []).build
          [.place (some 3) (some 7), .reach (some 3) (some 9), .page none,
            .rule (some " E1 ".toList)] =
        { f with filePath := "b.c".toList, severity := .note, message := [] } ∧
      f.beginning = placed.beginning ∧ f.ending = placed.ending ∧
      f.build f.own = f := by
  intro first steps placed f
  have hplaced : Placed placed := by
    refine ⟨⟨?_, ?_⟩, ?_, ?_, ?_⟩ <;> simp [placed]
  have hordered : Ordered steps := by decide
  obtain ⟨-, hlast, -, -, -, hkept, hagain⟩ :=
    build_about "a.c".toList "bad".toList .error hordered
  exact ⟨hordered, hplaced, by decide, hlast _ _ _ _ (by decide) (by decide),
    (hkept placed hplaced (by decide) (by decide)).1,
    (hkept placed hplaced (by decide) (by decide)).2, hagain _ (List.Subset.refl _)⟩

end LintFindings.Finding
