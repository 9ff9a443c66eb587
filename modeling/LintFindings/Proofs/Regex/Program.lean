/-
A program goes the ways of its expression.

`Runs` says what a program comes to from an instruction on: with which slots it accepts, if it
does, where a split prefers its first way.  It also counts the instructions that are gone through
before a character is looked at; whatever the slots are, this number and whether the program
accepts stay the same (`Runs.det`).

A part of a program is built without a look at what stands behind it, and it is not changed later.
So what it does is said for all programs that agree with it on the places it takes (`Builds`): it
tries the ways of its expression in their order, each of them up to the exit.  A repetition without
a bound goes round by its first place, with a character less each time.
-/
import LintFindings.Proofs.Regex.Answers
import LintFindings.Proofs.Regex.Repetition
import LintFindings.Proofs.Regex.Slots
import LintFindings.Regex.Search

namespace LintFindings.Program

/-! ### What a program comes to -/

/-- What a program comes to from an instruction on, with `n` instructions before the next
character. -/
inductive Runs (code : Array Instruction) :
    (n pc : Nat) → (passed rest : Text) → Slots → Option Slots → Prop
  | accept {pc : Nat} {passed rest : Text} {slots : Slots} (h : code[pc]? = some .accept) :
      Runs code 0 pc passed rest slots (some slots)
  | take {n pc next : Nat} {s : CharSet} {c : Char} {passed rest : Text} {slots : Slots}
      {r : Option Slots} (h : code[pc]? = some (.set s next)) (hc : s.mem c = true)
      (hnext : Runs code n next (c :: passed) rest slots r) :
      Runs code 0 pc passed (c :: rest) slots r
  | refuse {pc next : Nat} {s : CharSet} {passed rest : Text} {slots : Slots}
      (h : code[pc]? = some (.set s next)) (hc : ∀ c ∈ rest.head?, s.mem c = false) :
      Runs code 0 pc passed rest slots none
  | look {n pc next : Nat} {l : Look} {passed rest : Text} {slots : Slots} {r : Option Slots}
      (h : code[pc]? = some (.look l next)) (hl : l.holds passed.head? rest.head? = true)
      (hnext : Runs code n next passed rest slots r) : Runs code (n + 1) pc passed rest slots r
  | fail {pc next : Nat} {l : Look} {passed rest : Text} {slots : Slots}
      (h : code[pc]? = some (.look l next)) (hl : l.holds passed.head? rest.head? = false) :
      Runs code 0 pc passed rest slots none
  | split {m n pc first second : Nat} {passed rest : Text} {slots : Slots} {r r' : Option Slots}
      (h : code[pc]? = some (.split first second)) (hfirst : Runs code m first passed rest slots r)
      (hsecond : Runs code n second passed rest slots r') :
      Runs code (max m n + 1) pc passed rest slots (r.or r')
  | mark {n pc slot next : Nat} {passed rest : Text} {slots : Slots} {r : Option Slots}
      (h : code[pc]? = some (.mark slot next))
      (hnext : Runs code n next passed rest (slots.setIfInBounds slot (some passed.length)) r) :
      Runs code (n + 1) pc passed rest slots r

variable {names : List Text} {name passed rest : Text} {w w' : Way} {c : Char}
  {code full : Array Instruction} {m n pc next : Nat} {s : CharSet} {l : Look}
  {slots slots' : Slots} {r r' : Option Slots} {res : Way → Option Slots}

/-- How many instructions are gone through, and whether the program accepts, is up to the text. -/
theorem Runs.det (h : Runs code n pc passed rest slots r)
    (h' : Runs code m pc passed rest slots' r') : n = m ∧ r.isSome = r'.isSome := by
  induction h generalizing m slots' r' with
  | accept h =>
      cases h' with
      | accept => exact ⟨rfl, rfl⟩
      | _ => simp_all
  | take h hc _ ih =>
      cases h' with
      | take h' _ hnext' =>
          obtain ⟨-, rfl⟩ := Instruction.set.inj (Option.some.inj (h.symm.trans h'))
          exact ⟨rfl, (ih hnext').2⟩
      | _ => simp_all
  | refuse h hc =>
      cases h' with
      | refuse => exact ⟨rfl, rfl⟩
      | _ => simp_all
  | look h hl _ ih =>
      cases h' with
      | look h' _ hnext' =>
          obtain ⟨-, rfl⟩ := Instruction.look.inj (Option.some.inj (h.symm.trans h'))
          obtain ⟨rfl, hsome⟩ := ih hnext'
          exact ⟨rfl, hsome⟩
      | _ => simp_all
  | fail h hl =>
      cases h' with
      | fail => exact ⟨rfl, rfl⟩
      | _ => simp_all
  | split h _ _ ihfirst ihsecond =>
      cases h' with
      | split h' hfirst' hsecond' =>
          obtain ⟨rfl, rfl⟩ := Instruction.split.inj (Option.some.inj (h.symm.trans h'))
          obtain ⟨rfl, hsome⟩ := ihfirst hfirst'
          obtain ⟨rfl, hsome'⟩ := ihsecond hsecond'
          exact ⟨rfl, by rw [Option.isSome_or, Option.isSome_or, hsome, hsome']⟩
      | _ => simp_all
  | mark h _ ih =>
      cases h' with
      | mark h' hnext' =>
          obtain ⟨rfl, rfl⟩ := Instruction.mark.inj (Option.some.inj (h.symm.trans h'))
          obtain ⟨rfl, hsome⟩ := ih hnext'
          exact ⟨rfl, hsome⟩
      | _ => simp_all

/-- What a program comes to from an instruction on, with the slots of a way. -/
def Follows (code : Array Instruction) (names : List Text) (pc : Nat) (w : Way)
    (r : Option Slots) : Prop :=
  ∃ n, Runs code n pc w.passed w.rest (w.slots names) r

theorem Follows.split {first second : Nat} (h : code[pc]? = some (.split first second))
    (hfirst : Follows code names first w r) (hsecond : Follows code names second w r') :
    Follows code names pc w (r.or r') := by
  obtain ⟨m, hm⟩ := hfirst
  obtain ⟨n, hn⟩ := hsecond
  exact ⟨_, .split h hm hn⟩

theorem Follows.choice {greedy : Bool} {body exit : Nat}
    (h : code[pc]? = some (choice greedy body exit)) (hbody : Follows code names body w r)
    (hexit : Follows code names exit w r') :
    Follows code names pc w (if greedy then r.or r' else r'.or r) := by
  cases greedy
  · exact .split h hexit hbody
  · exact .split h hbody hexit

/-! ### Parts of a program -/

/-- A program has the instructions of a part from a place on. -/
def Holds (full code : Array Instruction) (first : Nat) : Prop :=
  ∀ i, first ≤ i → i < code.size → full[i]? = code[i]?

/-- A part is built for the ways of an expression. -/
structure Builds (names : List Text) (part : Nat → Builder Nat) (ways : Way → List Way) : Prop where
  size_le : ∀ exit code, code.size ≤ (part exit code).2.size
  keeps : ∀ exit code i, i < code.size → (part exit code).2[i]? = code[i]?
  /-- The ways are tried in their order, each of them up to the exit. -/
  follows : ∀ exit code full, Holds full (part exit code).2 code.size → ∀ w res,
    (∀ w' ∈ ways w, Follows full names exit w' (res w')) →
      Follows full names (part exit code).1 w ((ways w).findSome? res)

variable {part first second : Nat → Builder Nat} {ways firstWays secondWays : Way → List Way}
  {greedy : Bool}

theorem Builds.holds {exit k : Nat} (hpart : Builds names part ways)
    (h : Holds full (part exit code).2 k) : Holds full code k := by
  intro i hi hlt
  rw [h i hi (hlt.trans_le (hpart.size_le exit code)), hpart.keeps exit code i hlt]

theorem Holds.mono {k k' : Nat} (h : Holds full code k) (hk : k ≤ k') : Holds full code k' :=
  fun i hi => h i (hk.trans hi)

theorem builds_return : Builds names (fun exit => return exit) fun w => [w] where
  size_le _ _ := le_rfl
  keeps _ _ _ _ := rfl
  follows exit code full _ w res h := by
    rw [List.findSome?_singleton]
    exact h w (List.mem_singleton_self w)

/-- One part behind the other. -/
theorem Builds.bind (hfirst : Builds names first firstWays) (hsecond : Builds names second secondWays) :
    Builds names (fun exit => do first (← second exit))
      fun w => (firstWays w).flatMap secondWays where
  size_le exit code := (hsecond.size_le exit code).trans (hfirst.size_le _ _)
  keeps exit code i hi :=
    (hfirst.keeps _ _ i (hi.trans_le (hsecond.size_le exit code))).trans (hsecond.keeps exit code i hi)
  follows exit code full hfull w res h := by
    rw [Regex.findSome?_flatMap]
    refine hfirst.follows _ _ full (hfull.mono (hsecond.size_le exit code)) w _ fun w' hw' => ?_
    refine hsecond.follows exit code full (hfirst.holds hfull) w' res fun v hv => ?_
    exact h v (List.mem_flatMap.mpr ⟨w', hw', hv⟩)

theorem size_emit (i : Instruction) : (emit i code).2.size = code.size + 1 :=
  Array.size_push i

theorem le_size_emit (i : Instruction) : code.size ≤ (emit i code).2.size :=
  (Nat.le_succ _).trans_eq (size_emit i).symm

theorem getElem?_emit {i : Instruction} {k : Nat} (hk : k < code.size) :
    (emit i code).2[k]? = code[k]? := by
  rw [emit, Array.getElem?_push, if_neg hk.ne]

theorem Holds.emitted {i : Instruction} (h : Holds full (emit i code).2 code.size) :
    full[code.size]? = some i := by
  rw [h code.size le_rfl ((Nat.lt_succ_self _).trans_eq (size_emit i).symm)]
  exact Array.getElem?_push_size

theorem Holds.of_emit {i : Instruction} {k : Nat} (h : Holds full (emit i code).2 k) :
    Holds full code k := by
  intro j hj hlt
  rw [h j hj (hlt.trans_le (le_size_emit i)), getElem?_emit hlt]

theorem builds_set (s : CharSet) :
    Builds names (fun exit => Program.emit (.set s exit)) (Way.step s) where
  size_le exit code := le_size_emit _
  keeps exit code i hi := getElem?_emit hi
  follows exit code full hfull w res h := by
    have hcode := hfull.emitted
    cases hrest : w.rest with
    | nil =>
        refine ⟨0, ?_⟩
        rw [Way.step_nil hrest, hrest]
        exact .refuse hcode nofun
    | cons c t =>
        rw [Way.step_cons hrest] at h ⊢
        by_cases hc : s.mem c = true
        · rw [if_pos hc] at h ⊢
          obtain ⟨n, hn⟩ := h _ (List.mem_singleton_self _)
          refine ⟨0, ?_⟩
          rw [List.findSome?_singleton, hrest]
          exact .take hcode hc hn
        · refine ⟨0, ?_⟩
          rw [if_neg hc, hrest]
          exact .refuse hcode fun d hd => by
            obtain rfl := Option.some.inj hd
            exact eq_false_of_ne_true hc

theorem builds_look (l : Look) : Builds names (fun exit => emit (.look l exit)) fun w =>
    if l.holds w.passed.head? w.rest.head? then [w] else [] where
  size_le exit code := le_size_emit _
  keeps exit code i hi := getElem?_emit hi
  follows exit code full hfull w res h := by
    have hcode := hfull.emitted
    by_cases hl : l.holds w.passed.head? w.rest.head? = true
    · rw [if_pos hl] at h ⊢
      obtain ⟨n, hn⟩ := h w (List.mem_singleton_self w)
      rw [List.findSome?_singleton]
      exact ⟨_, .look hcode hl hn⟩
    · rw [if_neg hl]
      exact ⟨_, .fail hcode (eq_false_of_ne_true hl)⟩

theorem builds_enter (hnames : names.Nodup) (hname : name ∈ names) :
    Builds names (fun exit => emit (.mark (2 * names.idxOf name) exit))
      fun w => [w.enter name] where
  size_le exit code := le_size_emit _
  keeps exit code i hi := getElem?_emit hi
  follows exit code full hfull w res h := by
    obtain ⟨n, hn⟩ := h _ (List.mem_singleton_self _)
    rw [← Way.slots_enter hnames hname] at hn
    rw [List.findSome?_singleton]
    exact ⟨_, .mark hfull.emitted hn⟩

theorem builds_leave (hnames : names.Nodup) (hname : name ∈ names) :
    Builds names (fun exit => emit (.mark (2 * names.idxOf name + 1) exit))
      fun w => [w.leave name] where
  size_le exit code := le_size_emit _
  keeps exit code i hi := getElem?_emit hi
  follows exit code full hfull w res h := by
    obtain ⟨n, hn⟩ := h _ (List.mem_singleton_self _)
    rw [← Way.slots_leave hnames hname] at hn
    rw [List.findSome?_singleton]
    exact ⟨_, .mark hfull.emitted hn⟩

/-- A part that may be left out. -/
theorem Builds.choice (hpart : Builds names part ways) :
    Builds names (fun exit => do emit (choice greedy (← part exit) exit))
      fun w => if greedy then ways w ++ [w] else w :: ways w where
  size_le exit code := (hpart.size_le exit code).trans (le_size_emit _)
  keeps exit code i hi :=
    (getElem?_emit (hi.trans_le (hpart.size_le exit code))).trans (hpart.keeps exit code i hi)
  follows exit code full hfull w res h := by
    have hcode := (hfull.mono (hpart.size_le exit code)).emitted
    have hchoice := Follows.choice hcode (hpart.follows exit code full hfull.of_emit w res ?_) (h w ?_)
    · cases greedy
      · rw [if_neg Bool.false_ne_true, Regex.findSome?_cons_or]
        exact hchoice
      · rw [if_pos rfl, List.findSome?_append, List.findSome?_singleton]
        exact hchoice
    · intro w' hw'
      refine h w' ?_
      cases greedy <;> simp [hw']
    · cases greedy <;> simp

/-- One part or another. -/
theorem Builds.alt (hfirst : Builds names first firstWays) (hsecond : Builds names second secondWays) :
    Builds names (fun exit => do
        let other ← second exit
        emit (.split (← first exit) other))
      fun w => firstWays w ++ secondWays w where
  size_le exit code := (hsecond.size_le exit code).trans
    ((hfirst.size_le exit _).trans (le_size_emit _))
  keeps exit code i hi := by
    have hi' := hi.trans_le (hsecond.size_le exit code)
    exact (getElem?_emit (hi'.trans_le (hfirst.size_le exit _))).trans
      ((hfirst.keeps exit _ i hi').trans (hsecond.keeps exit code i hi))
  follows exit code full hfull w res h := by
    have hle := hsecond.size_le exit code
    have hle' := hfirst.size_le exit (second exit code).2
    have hcode := (hfull.mono (hle.trans hle')).emitted
    have hboth : Holds full (first exit (second exit code).2).2 code.size := hfull.of_emit
    rw [List.findSome?_append]
    refine Follows.split hcode ?_ ?_
    · refine hfirst.follows exit _ full (hboth.mono hle) w res fun w' hw' => ?_
      exact h w' (List.mem_append_left _ hw')
    · refine hsecond.follows exit code full (hfirst.holds hboth) w res fun w' hw' => ?_
      exact h w' (List.mem_append_right _ hw')

theorem builds_copies (hpart : Builds names part ways) (n : Nat) :
    Builds names (copies part n) (Regex.times ways n) := by
  induction n with
  | zero => exact builds_return
  | succ n ih =>
      have hways : Regex.times ways (n + 1) = fun w => (Regex.times ways n w).flatMap ways :=
        funext fun w => Regex.times_succ'
      rw [hways]
      exact ih.bind hpart

/-! ### Repetitions -/

section

variable (hshort : Regex.Shortens ways)
  (hpart : Builds names part ways)

include hshort hpart

theorem builds_upTo (n : Nat) : Builds names (upTo part greedy n) (Regex.upTo ways greedy n) := by
  induction n with
  | zero => exact builds_return
  | succ n ih =>
      have hways : Regex.upTo ways greedy (n + 1) = fun w =>
          if greedy then (ways w).flatMap (Regex.upTo ways greedy n) ++ [w]
          else w :: (ways w).flatMap (Regex.upTo ways greedy n) :=
        funext fun w => Regex.upTo_succ hshort
      rw [hways]
      exact (hpart.bind ih).choice

omit hpart in
/-- A repetition goes round by its first place, with a character less each time. -/
theorem follows_again {again body exit : Nat}
    (hagain : full[again]? = some (choice greedy body exit))
    (hbody : ∀ w res, (∀ w' ∈ ways w, Follows full names again w' (res w')) →
      Follows full names body w ((ways w).findSome? res))
    (h : ∀ w' ∈ Regex.anyTimes ways greedy w, Follows full names exit w' (res w')) :
    Follows full names again w ((Regex.anyTimes ways greedy w).findSome? res) := by
  induction hn : w.rest.length using Nat.strong_induction_on generalizing w with
  | h n ih =>
      rw [Regex.anyTimes_eq hshort] at h ⊢
      have hgo : Follows full names body w
          (((ways w).flatMap (Regex.anyTimes ways greedy)).findSome? res) := by
        rw [Regex.findSome?_flatMap]
        refine hbody w _ fun w' hw' => ih _ (hn ▸ hshort w w' hw') (fun v hv => h v ?_) rfl
        have hmem := List.mem_flatMap.mpr ⟨w', hw', hv⟩
        cases greedy <;> simp [hmem]
      have hchoice := Follows.choice hagain hgo (h w (by cases greedy <;> simp))
      cases greedy
      · rw [if_neg Bool.false_ne_true, Regex.findSome?_cons_or]
        exact hchoice
      · rw [if_pos rfl, List.findSome?_append, List.findSome?_singleton]
        exact hchoice

end

/-- A part that goes on at a place in front of it: this place, and where the part begins. -/
def round (part : Nat → Builder Nat) (greedy : Bool) (exit : Nat) : Builder (Nat × Nat) := do
  let again ← emit .accept
  let body ← part again
  patch again (choice greedy body exit)
  return (again, body)

section

variable {exit : Nat}

theorem size_round : (round part greedy exit code).2.size =
    (part code.size (emit .accept code).2).2.size :=
  Array.size_setIfInBounds

theorem getElem?_round {i : Nat} (hi : i ≠ code.size) : (round part greedy exit code).2[i]? =
    (part code.size (emit .accept code).2).2[i]? :=
  Array.getElem?_setIfInBounds_ne hi.symm

variable (hpart : Builds names part ways)

include hpart

theorem size_le_round : code.size < (round part greedy exit code).2.size := by
  rw [size_round, ← Nat.succ_le_iff, Nat.succ_eq_add_one, ← size_emit .accept]
  exact hpart.size_le code.size _

theorem keeps_round {i : Nat} (hi : i < code.size) :
    (round part greedy exit code).2[i]? = code[i]? := by
  rw [getElem?_round hi.ne, hpart.keeps _ _ i (hi.trans_le (le_size_emit _)), getElem?_emit hi]

theorem Holds.again (h : Holds full (round part greedy exit code).2 code.size) :
    full[code.size]? = some (Program.choice greedy (round part greedy exit code).1.2 exit) := by
  have hlt : code.size < (round part greedy exit code).2.size := size_le_round hpart
  rw [h _ le_rfl hlt]
  exact Array.getElem?_setIfInBounds_self_of_lt (hlt.trans_eq size_round)

omit hpart in
theorem Holds.body (h : Holds full (round part greedy exit code).2 code.size) :
    Holds full (part code.size (emit .accept code).2).2 (emit .accept code).2.size := by
  intro i hi hlt
  rw [size_emit] at hi
  rw [h i (Nat.le_of_succ_le hi) (hlt.trans_eq size_round.symm), getElem?_round (Nat.ne_of_gt hi)]

variable (hshort : Regex.Shortens ways)

include hshort

theorem builds_zeroOrMore :
    Builds names (zeroOrMore part false greedy) (Regex.anyTimes ways greedy) where
  size_le _ _ := (size_le_round hpart).le
  keeps _ _ _ := keeps_round hpart
  follows _ _ full hfull _ _ h :=
    follows_again hshort (hfull.again hpart) (hpart.follows _ _ full hfull.body) h

theorem builds_oneOrMore : Builds names (oneOrMore part greedy)
    fun w => (ways w).flatMap (Regex.anyTimes ways greedy) where
  size_le _ _ := (size_le_round hpart).le
  keeps _ _ _ := keeps_round hpart
  follows exit code full hfull w res h := by
    have hbody := hpart.follows _ _ full (Holds.body hfull)
    rw [Regex.findSome?_flatMap]
    refine hbody w _ fun w' hw' => ?_
    refine follows_again hshort (Holds.again hpart hfull) hbody fun v hv => h v ?_
    exact List.mem_flatMap.mpr ⟨w', hw', hv⟩

end

/-! ### The program of an expression -/

/-- **The program of an expression tries its ways in their order.** -/
theorem builds_compile (hnames : names.Nodup) {r : Regex} (hr : r.Advances)
    (hgroups : ∀ name ∈ r.groupNames, name ∈ names) : Builds names (compile names r) r.ways := by
  induction r with
  | empty => exact builds_return
  | set s => exact builds_set s
  | look l => exact builds_look l
  | group name a ih =>
      cases name with
      | none => exact ih hr hgroups
      | some name =>
          obtain ⟨hname, hgroups⟩ := List.forall_mem_cons.mp hgroups
          have hbuilt := (builds_enter hnames hname).bind
            ((ih hr hgroups).bind (builds_leave hnames hname))
          have hways : (Regex.group (some name) a).ways = fun w => [w.enter name].flatMap fun w' =>
              (a.ways w').flatMap fun v => [v.leave name] := by
            funext w
            rw [Regex.ways, List.flatMap_singleton, List.map_eq_flatMap]
          rw [hways]
          exact hbuilt
  | concat a b iha ihb =>
      obtain ⟨ha, hb⟩ := List.forall_mem_append.mp hgroups
      exact (iha hr.1 ha).bind (ihb hr.2 hb)
  | alt a b iha ihb =>
      obtain ⟨ha, hb⟩ := List.forall_mem_append.mp hgroups
      exact (iha hr.1 ha).alt (ihb hr.2 hb)
  | loop min max greedy a ih =>
      have hshort : Regex.Shortens a.ways := fun w w' => Regex.shorter_of_mem_ways hr.1
      have hpart := ih hr.2 hgroups
      cases max with
      | some max => 
          exact (builds_copies hpart min).bind (builds_upTo hshort hpart (max - min))
      | none =>
          cases min with
          | zero =>
              have hbuilt : Builds names (zeroOrMore (compile names a) false greedy) _ :=
                builds_zeroOrMore hpart hshort
              rw [← hr.1] at hbuilt
              have hways : (Regex.loop 0 none greedy a).ways = Regex.anyTimes a.ways greedy :=
                funext fun w => List.flatMap_singleton ..
              rw [hways]
              exact hbuilt
          | succ n =>
              have hmore : Builds names (oneOrMore (compile names a) greedy) _ :=
                builds_oneOrMore hpart hshort
              have hbuilt := (builds_copies hpart n).bind hmore
              have hways : (Regex.loop (n + 1) none greedy a).ways = fun w =>
                  (Regex.times a.ways n w).flatMap fun w' =>
                    (a.ways w').flatMap (Regex.anyTimes a.ways greedy) := by
                funext w
                rw [Regex.ways, Regex.times_succ', List.flatMap_assoc]
                rfl
              rw [hways]
              exact hbuilt

/-- The program of an expression comes to the first of its ways. -/
theorem follows_ofRegex {r : Regex} (hnames : r.groupNames.Nodup) (hr : r.Advances) (w : Way) :
    Follows (ofRegex r).code r.groupNames (ofRegex r).start w
      ((r.ways w).head?.map (Way.slots r.groupNames)) := by
  have hbuilt := builds_compile hnames hr fun name hname => hname
  have haccept : (ofRegex r).code[0]? = some .accept :=
    hbuilt.keeps 0 #[.accept] 0 Nat.zero_lt_one
  have hfollows := hbuilt.follows 0 #[.accept] (ofRegex r).code (fun i _ _ => rfl) w
    (fun v => some (v.slots r.groupNames)) fun v _ => ⟨0, .accept haccept⟩
  have hfirst : (r.ways w).findSome? (fun v => some (v.slots r.groupNames)) =
      (r.ways w).head?.map (Way.slots r.groupNames) := by
    cases r.ways w <;> rfl
  rwa [hfirst] at hfollows

end LintFindings.Program
