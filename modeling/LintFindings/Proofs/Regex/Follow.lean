/-
Ways that are followed at once.

All ways through a program are followed at once, and an instruction that was reached at a place
is not followed again there.  Nothing is lost by that: whether the program accepts from there is
up to the text (`Runs.det`), and if it does, a way in front of it does too.  This is so even
while the first visit is under way, as an instruction is not reached again from those behind it:
they have less to go through before the next character.

So to follow one more way means to put what it comes to behind what the ways in front come to
(`adds_of_runs`).
-/
import LintFindings.Proofs.Regex.Program

namespace LintFindings.Program

variable {code : Array Instruction} {n m pc : Nat} {passed rest : Text} {slots : Slots}
  {r r' v v' : Option Slots} {ways ways' : List (Nat × Slots)} {front front' : Front}

/-! ### What ways come to -/

/-- An instruction that takes a character or accepts. -/
def Stops (code : Array Instruction) (pc : Nat) : Prop :=
  code[pc]? = some .accept ∨ ∃ s next, code[pc]? = some (.set s next)

/-- What ways at a place of a text come to: the first that accepts. -/
inductive Comes (code : Array Instruction) (passed rest : Text) :
    List (Nat × Slots) → Option Slots → Prop
  | nil : Comes code passed rest [] none
  | cons {n pc : Nat} {slots : Slots} {r r' : Option Slots} {ways : List (Nat × Slots)}
      (hstops : Stops code pc) (h : Runs code n pc passed rest slots r)
      (hways : Comes code passed rest ways r') :
      Comes code passed rest ((pc, slots) :: ways) (r.or r')

theorem Comes.concat (hways : Comes code passed rest ways v) (hstops : Stops code pc)
    (h : Runs code n pc passed rest slots r) :
    Comes code passed rest (ways ++ [(pc, slots)]) (v.or r) := by
  induction hways with
  | nil =>
      have hsingle := Comes.cons hstops h .nil
      rwa [Option.or_none] at hsingle
  | cons hstops' h' _ ih =>
      rw [Option.or_assoc]
      exact .cons hstops' h' ih

/-! ### What was reached -/

/-- The place between what was passed and what is ahead. -/
def place (passed rest : Text) : Place := ⟨passed.length, passed.head?, rest.head?⟩

/-- An instruction was reached at the place where so much was passed. -/
def Front.Reached (front : Front) (passed : Text) (pc : Nat) : Prop :=
  front.reached.getD pc 0 = passed.length + 1

/-- An instruction is reached. -/
def Front.visit (front : Front) (passed : Text) (pc : Nat) : Front :=
  { front with reached := front.reached.setIfInBounds pc (passed.length + 1) }

/-- How many instructions were not reached. -/
def Front.left (front : Front) (passed : Text) : Nat :=
  front.reached.countP (· != passed.length + 1)

theorem getD_visit {other : Nat} (hpc : pc < front.reached.size) :
    (front.visit passed pc).reached.getD other 0 =
      if other = pc then passed.length + 1 else front.reached.getD other 0 := by
  rw [Front.visit, Array.getD_eq_getD_getElem?, Array.getD_eq_getD_getElem?,
    Array.getElem?_setIfInBounds]
  by_cases h : other = pc
  · rw [if_pos h.symm, if_pos (h ▸ hpc), if_pos h, Option.getD_some]
  · rw [if_neg (Ne.symm h), if_neg h]

theorem reached_visit {other : Nat} (hpc : pc < front.reached.size) :
    (front.visit passed pc).Reached passed other ↔ other = pc ∨ front.Reached passed other := by
  rw [Front.Reached, getD_visit hpc]
  by_cases h : other = pc
  · simp [h]
  · simp [h, Front.Reached]

theorem left_le : front.left passed ≤ front.reached.size := Array.countP_le_size

/-- Each instruction that is reached is one less that is left. -/
theorem left_visit (hpc : pc < front.reached.size) (hreached : ¬ front.Reached passed pc) :
    (front.visit passed pc).left passed + 1 = front.left passed := by
  have hlength : pc < front.reached.toList.length := by simpa using hpc
  have hold : (front.reached.toList[pc] != passed.length + 1) = true := by
    rw [Front.Reached, Array.getD_eq_getD_getElem?, Array.getElem?_eq_getElem hpc,
      Option.getD_some] at hreached
    simpa using hreached
  have hpos : 0 < front.reached.toList.countP (· != passed.length + 1) :=
    List.countP_pos_iff.mpr ⟨_, List.getElem_mem hlength, hold⟩
  rw [Front.left, Front.left, Front.visit, ← Array.countP_toList, ← Array.countP_toList,
    Array.toList_setIfInBounds, List.countP_set hlength, if_pos hold, bne_self_eq_false,
    if_neg Bool.false_ne_true, Nat.add_zero]
  exact Nat.sub_add_cancel hpos

/-- Ways at a place: what they come to, and what is kept of the instructions that were reached. -/
structure Front.Comes (front : Front) (code : Array Instruction) (passed rest : Text)
    (v : Option Slots) : Prop where
  ways : Program.Comes code passed rest front.ways.toList v
  size : front.reached.size = code.size
  le : ∀ pc, front.reached.getD pc 0 ≤ passed.length + 1

theorem Front.Comes.visit (h : front.Comes code passed rest v) (hpc : pc < front.reached.size) :
    (front.visit passed pc).Comes code passed rest v where
  ways := h.ways
  size := Array.size_setIfInBounds.trans h.size
  le other := by
    rw [getD_visit hpc]
    split
    · exact le_rfl
    · exact h.le other

/-- Where the program accepts from an instruction that was reached, with no more than `n`
instructions to the next character, a way accepts already. -/
def Front.Covered (front : Front) (code : Array Instruction) (passed rest : Text) (n : Nat)
    (v : Option Slots) : Prop :=
  ∀ pc m slots r, front.Reached passed pc → m ≤ n → Runs code m pc passed rest slots r →
    r.isSome = true → v.isSome = true

/-- What was reached on the way from one front to another has no more than `n` instructions to
the next character, and where the program accepts from there, a way accepts. -/
def Front.Grows (front front' : Front) (code : Array Instruction) (passed rest : Text) (n : Nat)
    (v : Option Slots) : Prop :=
  ∀ pc, front'.Reached passed pc → front.Reached passed pc ∨
    ∃ m slots r, m ≤ n ∧ Runs code m pc passed rest slots r ∧ (r.isSome = true → v.isSome = true)

theorem Front.Covered.grows {k : Nat} (h : front.Covered code passed rest k v)
    (hgrows : front.Grows front' code passed rest n v') (hv : v.isSome = true → v'.isSome = true) :
    front'.Covered code passed rest k v' := by
  intro pc m slots r hreached hm hr hsome
  obtain hold | ⟨m', slots', r', -, hr', hsome'⟩ := hgrows pc hreached
  · exact hv (h pc m slots r hold hm hr hsome)
  · exact hsome' (((hr'.det hr).2).trans hsome)

theorem Front.Grows.trans {front'' : Front} {k : Nat} (h : front.Grows front' code passed rest n v)
    (h' : front'.Grows front'' code passed rest k v') (hn : n ≤ m) (hk : k ≤ m)
    (hv : v.isSome = true → v'.isSome = true) : front.Grows front'' code passed rest m v' := by
  intro pc hreached
  obtain hmid | ⟨m', slots, r, hm, hr, hsome⟩ := h' pc hreached
  · obtain hold | ⟨m', slots, r, hm, hr, hsome⟩ := h pc hmid
    · exact Or.inl hold
    · exact Or.inr ⟨m', slots, r, hm.trans hn, hr, hv ∘ hsome⟩
  · exact Or.inr ⟨m', slots, r, hm.trans hk, hr, hsome⟩

/-- To reach an instruction does not change what was covered of those with less to go through. -/
theorem Front.Covered.visit (h : front.Covered code passed rest n v)
    (hr : Runs code n pc passed rest slots r) (hpc : pc < front.reached.size) (hm : m < n) :
    (front.visit passed pc).Covered code passed rest m v := by
  intro other k slots' r' hreached hk hr' hsome
  obtain rfl | hold := (reached_visit hpc).mp hreached
  · exact absurd (hr'.det hr).1 (hk.trans_lt hm).ne
  · exact h other k slots' r' hold (hk.trans hm.le) hr' hsome

theorem Front.grows_visit (hr : Runs code n pc passed rest slots r) (hpc : pc < front.reached.size)
    (hv : r.isSome = true → v.isSome = true) :
    front.Grows (front.visit passed pc) code passed rest n v := by
  intro other hreached
  obtain rfl | hold := (reached_visit hpc).mp hreached
  · exact Or.inr ⟨n, slots, r, le_rfl, hr, hv⟩
  · exact Or.inl hold

/-! ### Ways that are followed -/

section

variable {todo todo' : List (Nat × Slots)} {fuel : Nat}

theorem Runs.lt_size (h : Runs code n pc passed rest slots r) : pc < code.size := by
  have hlt {i : Instruction} (hcode : code[pc]? = some i) : pc < code.size :=
    (Array.getElem?_eq_some_iff.mp hcode).1
  cases h with
  | accept h => exact hlt h
  | take h _ _ => exact hlt h
  | refuse h _ => exact hlt h
  | look h _ _ => exact hlt h
  | fail h _ => exact hlt h
  | split h _ _ => exact hlt h
  | mark h _ => exact hlt h

/-- Some of the ways are followed: the others are left, and the ways come to more. -/
def Front.Leads (front : Front) (code : Array Instruction) (passed rest : Text) (fuel : Nat)
    (todo todo' : List (Nat × Slots)) (n : Nat) (v : Option Slots) : Prop :=
  ∃ fuel' front', follow code (place passed rest) fuel todo front =
      follow code (place passed rest) fuel' todo' front' ∧
    todo'.length + 2 * front'.left passed ≤ fuel' ∧ front'.Comes code passed rest v ∧
      front.Grows front' code passed rest n v

theorem Front.Leads.visit {todo'' : List (Nat × Slots)}
    (h : (front.visit passed pc).Leads code passed rest fuel todo' todo'' m v)
    (hfollow : follow code (place passed rest) (fuel + 1) todo front =
      follow code (place passed rest) fuel todo' (front.visit passed pc))
    (hr : Runs code n pc passed rest slots r) (hsize : front.reached.size = code.size)
    (hm : m ≤ n) (hv : r.isSome = true → v.isSome = true) :
    front.Leads code passed rest (fuel + 1) todo todo'' n v := by
  obtain ⟨fuel', front', heq, hroom, hcomes, hgrows⟩ := h
  refine ⟨fuel', front', hfollow.trans heq, hroom, hcomes, ?_⟩
  exact (Front.grows_visit hr (hsize ▸ hr.lt_size) hv).trans hgrows le_rfl hm id

theorem Front.Leads.trans {todo'' : List (Nat × Slots)}
    (h : front.Leads code passed rest fuel todo todo' m v)
    (h' : ∀ fuel' front', todo'.length + 2 * front'.left passed ≤ fuel' →
      front'.Comes code passed rest v → front.Grows front' code passed rest m v →
      front'.Leads code passed rest fuel' todo' todo'' n v')
    (hv : v.isSome = true → v'.isSome = true) :
    front.Leads code passed rest fuel todo todo'' (max m n) v' := by
  obtain ⟨fuel', front', heq, hroom, hcomes, hgrows⟩ := h
  obtain ⟨fuel'', front'', heq', hroom', hcomes', hgrows'⟩ := h' fuel' front' hroom hcomes hgrows
  refine ⟨fuel'', front'', heq.trans heq', hroom', hcomes', ?_⟩
  exact hgrows.trans hgrows' (Nat.le_max_left m n) (Nat.le_max_right m n) hv

/-- How a way goes on from an instruction that was not reached before. -/
def onward (code : Array Instruction) (passed rest : Text) (fuel pc : Nat) (slots : Slots)
    (todo : List (Nat × Slots)) (front : Front) : Instruction → Front
  | .accept | .set _ _ =>
    follow code (place passed rest) fuel todo { front with ways := front.ways.push (pc, slots) }
  | .look l next =>
    follow code (place passed rest) fuel
      (if l.holds passed.head? rest.head? then (next, slots) :: todo else todo) front
  | .split first second =>
    follow code (place passed rest) fuel ((first, slots) :: (second, slots) :: todo) front
  | .mark slot next =>
    follow code (place passed rest) fuel
      ((next, slots.setIfInBounds slot (some passed.length)) :: todo) front

theorem follow_new {i : Instruction} (hreached : ¬ front.Reached passed pc)
    (hcode : code[pc]? = some i) :
    follow code (place passed rest) (fuel + 1) ((pc, slots) :: todo) front =
      onward code passed rest fuel pc slots todo (front.visit passed pc) i := by
  rw [follow]
  refine (if_neg hreached).trans ?_
  rw [hcode]
  cases i <;> rfl

theorem isSome_or_left (h : v.isSome = true) : (v.or r).isSome = true := by
  rw [Option.isSome_or, h, Bool.true_or]

theorem isSome_or_right (h : r.isSome = true) : (v.or r).isSome = true := by
  rw [Option.isSome_or, h, Bool.or_true]

/-- What a way comes to is put behind what the ways in front come to. -/
def Adds (code : Array Instruction) (passed rest : Text) (n pc : Nat) (slots : Slots)
    (r : Option Slots) : Prop :=
  ∀ front v fuel todo, Front.Comes front code passed rest v → front.Covered code passed rest n v →
    todo.length + 1 + 2 * front.left passed ≤ fuel →
      front.Leads code passed rest fuel ((pc, slots) :: todo) todo n (v.or r)

/-- An instruction that was reached is not followed again, and nothing is lost by that. -/
theorem adds_of_new (hr : Runs code n pc passed rest slots r)
    (h : ∀ front v fuel todo, ¬ Front.Reached front passed pc → front.reached.size = code.size →
      (front.visit passed pc).Comes code passed rest v → front.Covered code passed rest n v →
      todo.length + 2 + 2 * (front.visit passed pc).left passed ≤ fuel →
        front.Leads code passed rest (fuel + 1) ((pc, slots) :: todo) todo n (v.or r)) :
    Adds code passed rest n pc slots r := by
  intro front v fuel todo hcomes hcovered hroom
  have hpc : pc < front.reached.size := hcomes.size ▸ hr.lt_size
  obtain ⟨fuel, rfl⟩ : ∃ fuel', fuel = fuel' + 1 := Nat.exists_eq_add_one.mpr (by omega)
  by_cases hreached : front.Reached passed pc
  · -- if the program accepts from here, a way in front accepts already
    have hv : v.or r = v := by
      cases r with
      | none => exact Option.or_none
      | some slots' => exact Option.or_of_isSome (hcovered pc n slots _ hreached le_rfl hr rfl)
    refine ⟨fuel, front, ?_, by omega, by rwa [hv], fun _ => Or.inl⟩
    rw [follow]
    exact if_pos hreached
  · have hleft := left_visit hpc hreached
    exact h front v fuel todo hreached hcomes.size (hcomes.visit hpc) hcovered (by omega)

/-- A way stops at an instruction that takes a character or accepts. -/
theorem adds_of_stops (hstops : Stops code pc) (hr : Runs code n pc passed rest slots r) :
    Adds code passed rest n pc slots r := by
  refine adds_of_new hr fun front v fuel todo hreached hsize hcomes _ hroom => ?_
  refine ⟨fuel, { front.visit passed pc with ways := front.ways.push (pc, slots) }, ?_, ?_, ?_, ?_⟩
  · obtain hcode | ⟨s, next, hcode⟩ := hstops <;> exact follow_new hreached hcode
  · change todo.length + 2 * (front.visit passed pc).left passed ≤ fuel
    omega
  · refine ⟨?_, hcomes.size, hcomes.le⟩
    rw [Array.toList_push]
    exact hcomes.ways.concat hstops hr
  · exact Front.grows_visit hr (hsize ▸ hr.lt_size) isSome_or_right

/-- A way goes on at one other instruction. -/
theorem Adds.onward {next : Nat} {slots' : Slots} (h : Adds code passed rest n next slots' r)
    (hr : Runs code (n + 1) pc passed rest slots r)
    (hfollow : ∀ fuel todo front, ¬ Front.Reached front passed pc →
      follow code (place passed rest) (fuel + 1) ((pc, slots) :: todo) front =
        follow code (place passed rest) fuel ((next, slots') :: todo) (front.visit passed pc)) :
    Adds code passed rest (n + 1) pc slots r := by
  refine adds_of_new hr fun front v fuel todo hreached hsize hcomes hcovered hroom => ?_
  have hpc : pc < front.reached.size := hsize ▸ hr.lt_size
  have hleads := h _ v fuel todo hcomes (hcovered.visit hr hpc (Nat.lt_succ_self n)) (by omega)
  exact hleads.visit (hfollow fuel todo front hreached) hr hsize (Nat.le_succ n) isSome_or_right

theorem adds_of_fail {l : Look} {next : Nat} (hcode : code[pc]? = some (.look l next))
    (hl : l.holds passed.head? rest.head? = false) : Adds code passed rest 0 pc slots none := by
  have hr : Runs code 0 pc passed rest slots none := .fail hcode hl
  refine adds_of_new hr fun front v fuel todo hreached hsize hcomes _ hroom => ?_
  refine ⟨fuel, front.visit passed pc, ?_, by omega, by rwa [Option.or_none], ?_⟩
  · rw [follow_new hreached hcode, Program.onward, if_neg (by rw [hl]; exact Bool.false_ne_true)]
  · exact Front.grows_visit hr (hsize ▸ hr.lt_size) nofun

/-- A way goes on at two other instructions, at the first one first. -/
theorem Adds.split {first second : Nat} (hfirst : Adds code passed rest m first slots r)
    (hsecond : Adds code passed rest n second slots r')
    (hcode : code[pc]? = some (.split first second))
    (hr : Runs code (max m n + 1) pc passed rest slots (r.or r')) :
    Adds code passed rest (max m n + 1) pc slots (r.or r') := by
  refine adds_of_new hr fun front v fuel todo hreached hsize hcomes hcovered hroom => ?_
  have hpc : pc < front.reached.size := hsize ▸ hr.lt_size
  -- both have less to go through than the split, which is reached now
  have hcovered' {k : Nat} (hk : k ≤ max m n) :
      (front.visit passed pc).Covered code passed rest k v :=
    hcovered.visit hr hpc (Nat.lt_succ_of_le hk)
  have hleads := hfirst _ v fuel ((second, slots) :: todo) hcomes (hcovered' (Nat.le_max_left m n))
    (by rw [List.length_cons]; omega)
  have hboth := hleads.trans (fun fuel' front' hroom' hcomes' hgrows =>
    hsecond front' (v.or r) fuel' todo hcomes'
      ((hcovered' (Nat.le_max_right m n)).grows hgrows isSome_or_left)
      (by rwa [List.length_cons] at hroom')) isSome_or_left
  rw [← Option.or_assoc]
  refine hboth.visit (follow_new hreached hcode) hr hsize (Nat.le_succ _) fun hsome => ?_
  rw [Option.or_assoc]
  exact isSome_or_right hsome

/-- **To follow one more way means to put what it comes to behind what the ways in front come to.** -/
theorem adds_of_runs (hr : Runs code n pc passed rest slots r) :
    Adds code passed rest n pc slots r := by
  induction hr with
  | accept h => exact adds_of_stops (Or.inl h) (.accept h)
  | take h hc hnext => exact adds_of_stops (Or.inr ⟨_, _, h⟩) (.take h hc hnext)
  | refuse h hc => exact adds_of_stops (Or.inr ⟨_, _, h⟩) (.refuse h hc)
  | look h hl hnext ih =>
      refine ih.onward (.look h hl hnext) fun fuel todo front hreached => ?_
      rw [follow_new hreached h, Program.onward, if_pos hl]
  | fail h hl => exact adds_of_fail h hl
  | split h hfirst hsecond ihfirst ihsecond =>
      exact ihfirst.split ihsecond h (.split h hfirst hsecond)
  | mark h hnext ih =>
      exact ih.onward (.mark h hnext) fun fuel todo front hreached => follow_new hreached h

end

end LintFindings.Program
