/-
The search finds the first way.

To take a character on all ways does not change what they come to (`step_spec`), and a new way
begins behind the others at each place.  So what is found comes from the first place from which the
program accepts (`searchFrom_eq`), and is the first way of the expression there.  With that
the built-in engine is one that finds the first way (`Regex.findsFirst_ofRegex`).
-/
import LintFindings.Proofs.Regex.Follow
import LintFindings.Proofs.Regex.Names

namespace LintFindings

namespace Program

variable {code : Array Instruction} {n pc : Nat} {passed rest : Text} {slots : Slots}
  {r v v' : Option Slots} {ways : List (Nat × Slots)} {front : Front}

/-! ### From place to place -/

/-- Ways at a place: what they come to, and that nothing is lost of what was reached. -/
structure Front.At (front : Front) (code : Array Instruction) (passed rest : Text)
    (v : Option Slots) : Prop extends front.Comes code passed rest v where
  covered : ∀ n, front.Covered code passed rest n v

theorem follow_nil {p : Place} {fuel : Nat} : follow code p fuel [] front = front := by
  cases fuel <;> simp [follow]

/-- One more way is followed. -/
theorem Front.At.follow (h : front.At code passed rest v)
    (hr : Runs code n pc passed rest slots r) :
    (Program.follow code (place passed rest) (fuel code) [(pc, slots)] front).At code passed rest
      (v.or r) := by
  have hleft : front.left passed ≤ code.size := left_le.trans_eq h.size
  obtain ⟨fuel', front', heq, -, hcomes, hgrows⟩ :=
    adds_of_runs hr front v (fuel code) [] h.toComes (h.covered n) (by
      rw [fuel, List.length_nil]
      omega)
  rw [heq, follow_nil]
  exact ⟨hcomes, fun k => (h.covered k).grows hgrows isSome_or_left⟩

/-- Where nothing was reached yet, no way is there either. -/
theorem Front.Comes.at_next {c : Char} (h : front.Comes code passed (c :: rest) v) :
    ({ front with ways := #[] } : Front).At code (c :: passed) rest none where
  ways := .nil
  size := h.size
  le pc := (h.le pc).trans (Nat.succ_le_succ (Nat.le_succ _))
  covered n pc m slots r hreached := by
    have hle := h.le pc
    rw [← Nat.lt_succ_iff] at hle
    exact absurd hreached hle.ne

theorem Runs.of_accept (h : Runs code n pc passed rest slots r) (hcode : code[pc]? = some .accept) :
    r = some slots := by
  cases h <;> simp_all

theorem Runs.of_set {s : CharSet} {next : Nat} (h : Runs code n pc passed rest slots r)
    (hcode : code[pc]? = some (.set s next)) :
    (∃ c t m, rest = c :: t ∧ s.mem c = true ∧ Runs code m next (c :: passed) t slots r) ∨
      ((∀ c ∈ rest.head?, s.mem c = false) ∧ r = none) := by
  cases h with
  | take h hc hnext =>
      obtain ⟨rfl, rfl⟩ := Instruction.set.inj (Option.some.inj (hcode.symm.trans h))
      exact Or.inl ⟨_, _, _, rfl, hc, hnext⟩
  | refuse h hc =>
      obtain ⟨rfl, rfl⟩ := Instruction.set.inj (Option.some.inj (hcode.symm.trans h))
      exact Or.inr ⟨hc, rfl⟩
  | _ => simp_all

section

variable {p : Place} {c : Option Char}

theorem step_accept (hcode : code[pc]? = some .accept) :
    step code c p ((pc, slots) :: ways) front = (front, some slots) := by
  rw [step, hcode]

theorem step_set {s : CharSet} {next : Nat} (hcode : code[pc]? = some (.set s next)) :
    step code c p ((pc, slots) :: ways) front =
      if c.any s.mem then step code c p ways (follow code p (fuel code) [(next, slots)] front)
      else step code c p ways front := by
  rw [step, hcode]

end

/-- **To take a character does not change what ways come to.** -/
theorem step_spec {c : Char} (hways : Comes code passed (c :: rest) ways r)
    (hfront : front.At code (c :: passed) rest v) :
    ∃ v', (step code (some c) (place (c :: passed) rest) ways front).1.At code (c :: passed) rest v' ∧
      v.or r = v'.or (step code (some c) (place (c :: passed) rest) ways front).2 := by
  induction hways generalizing front v with
  | nil => exact ⟨v, hfront, rfl⟩
  | cons hstops h _ ih =>
      obtain hcode | ⟨s, next, hcode⟩ := hstops
      · obtain rfl := h.of_accept hcode
        rw [step_accept hcode]
        exact ⟨v, hfront, rfl⟩
      · rw [step_set hcode, Option.any_some, ← Option.or_assoc]
        obtain ⟨d, t, m, heq, hd, hnext⟩ | ⟨hrefused, rfl⟩ := h.of_set hcode
        · obtain ⟨rfl, rfl⟩ := List.cons.inj heq
          rw [if_pos hd]
          exact ih (hfront.follow hnext)
        · rw [hrefused c rfl, if_neg Bool.false_ne_true, Option.or_none]
          exact ih hfront

/-- At the end of a text a way accepts or not. -/
theorem step_end {p : Place} (hways : Comes code passed [] ways r) :
    (step code none p ways front).2 = r := by
  induction hways with
  | nil => rfl
  | cons hstops h _ ih =>
      obtain hcode | ⟨s, next, hcode⟩ := hstops
      · obtain rfl := h.of_accept hcode
        rw [step_accept hcode]
        rfl
      · rw [step_set hcode, Option.any_none, if_neg Bool.false_ne_true, ih]
        obtain ⟨d, t, m, heq, -⟩ | ⟨-, rfl⟩ := h.of_set hcode
        · cases heq
        · rfl

/-! ### The search -/

/-- The first that is found from a place on. -/
def leftmost (found : Text → Text → Option Slots) (passed : Text) : (rest : Text) → Option Slots
  | [] => found passed []
  | c :: rest => (found passed (c :: rest)).or (leftmost found (c :: passed) rest)

section

variable {prog : Program} {found : Text → Text → Option Slots} {best : Option Slots}
  (hfound : ∀ passed rest, ∃ n, Runs prog.code n prog.start passed rest
    (Array.replicate (2 * prog.names.length) none) (found passed rest))

include hfound

/-- While nothing is found, a way begins at each place. -/
theorem Front.At.begin (h : front.At prog.code passed rest v) (best : Option Slots) :
    (if best.isSome then front
      else Program.follow prog.code (place passed rest) (fuel prog.code)
        [(prog.start, Array.replicate (2 * prog.names.length) none)] front).At prog.code passed rest
      (if best.isSome then v else v.or (found passed rest)) := by
  split
  · exact h
  · obtain ⟨n, hn⟩ := hfound passed rest
    exact h.follow hn

omit hfound in
theorem searchFrom_cons {c : Char} :
    searchFrom prog (c :: rest) (place passed (c :: rest)) front best =
      let front' :=
        if best.isSome then front
        else Program.follow prog.code (place passed (c :: rest)) (fuel prog.code)
          [(prog.start, Array.replicate (2 * prog.names.length) none)] front
      let next := step prog.code (some c) (place (c :: passed) rest) front'.ways.toList
        { front' with ways := #[] }
      if next.1.ways.isEmpty && (next.2.or best).isSome then next.2.or best
      else searchFrom prog rest (place (c :: passed) rest) next.1 (next.2.or best) := by
  rw [searchFrom]
  rfl

omit hfound in
/-- What was found at a place takes part as before, if the ways ahead come to it with what is found. -/
theorem or_ahead {first later found' : Option Slots}
    (hv : (if best.isSome then v else v.or first) = v'.or found') :
    v'.or (if (found'.or best).isSome then found'.or best else later) =
      v.or (if best.isSome then best else first.or later) := by
  cases best with
  | some slots =>
      have hv : v = v'.or found' := hv
      rw [if_pos (isSome_or_right rfl), hv, Option.or_assoc]
      rfl
  | none =>
      have hv : v.or first = v'.or found' := hv
      rw [Option.isSome_none, if_neg Bool.false_ne_true, Option.or_none, ← Option.or_assoc, hv]
      cases found' with
      | none => rw [Option.isSome_none, if_neg Bool.false_ne_true, Option.or_none]
      | some slots => rw [Option.isSome_some, if_pos rfl, Option.or_of_isSome (isSome_or_right rfl)]

/-- **The search finds what the ways come to, and else the first that is found from a place on.** -/
theorem searchFrom_eq (h : front.At prog.code passed rest v) :
    searchFrom prog rest (place passed rest) front best =
      v.or (if best.isSome then best else leftmost found passed rest) := by
  induction rest generalizing passed front best v with
  | nil =>
      have hbegin := h.begin hfound best
      rw [searchFrom]
      dsimp only
      rw [step_end hbegin.ways]
      cases best with
      | none => exact Option.or_none
      | some slots => rfl
  | cons c rest ih =>
      have hbegin := h.begin hfound best
      obtain ⟨v', hahead, hv⟩ := step_spec hbegin.ways hbegin.toComes.at_next
      rw [searchFrom_cons]
      dsimp only
      generalize step prog.code _ _ _ _ = next at hahead hv ⊢
      obtain ⟨ahead, found'⟩ := next
      dsimp only at hahead hv ⊢
      rw [leftmost, ← or_ahead ((Option.none_or ..).symm.trans hv)]
      split
      · rename_i hdone
        obtain ⟨hempty, hsome⟩ := (Bool.and_eq_true _ _).mp hdone
        have hways := hahead.ways
        rw [Array.isEmpty_iff.mp hempty] at hways
        cases hways
        rw [if_pos hsome, Option.none_or]
      · exact ih hahead

omit hfound in
theorem at_start (code : Array Instruction) (t : Text) :
    ({ ways := #[], reached := Array.replicate code.size 0 } : Front).At code [] t none := by
  have hreached (pc : Nat) : (Array.replicate code.size 0).getD pc 0 = 0 := by
    rw [Array.getD_eq_getD_getElem?, Array.getElem?_replicate]
    split <;> rfl
  refine ⟨⟨.nil, Array.size_replicate, fun pc => ?_⟩, fun n pc m slots r h => ?_⟩
  · rw [hreached]
    exact Nat.zero_le _
  · rw [Front.Reached, hreached] at h
    cases h

theorem search_eq (t : Text) : prog.search t = leftmost found [] t :=
  (searchFrom_eq hfound (at_start prog.code t)).trans (Option.none_or ..)

end

end Program

/-! ### The compiled expression -/

namespace Regex

variable {r : Regex}

theorem leftmost_eq (r : Regex) (names : List Text) (passed rest : Text) :
    Program.leftmost (fun passed rest =>
      (r.ways (.start passed rest)).head?.map (Way.slots names)) passed rest =
        (r.firstFrom passed rest).map (Way.slots names) := by
  induction rest generalizing passed with
  | nil => rfl
  | cons c rest ih => rw [Program.leftmost, ih, firstFrom, Option.map_or]

theorem search_ofRegex (hnames : r.groupNames.Nodup) (hr : r.Advances) (t : Text) :
    (Program.ofRegex r).search t = (r.first? t).map (Way.slots r.groupNames) := by
  refine (Program.search_eq (fun passed rest => ?_) t).trans (leftmost_eq r r.groupNames [] t)
  obtain ⟨n, hn⟩ := Program.follows_ofRegex hnames hr (.start passed rest)
  rw [Way.slots_start] at hn
  exact ⟨n, hn⟩

theorem idxOf?_of_mem {names : List Text} {name : Text} (h : name ∈ names) :
    names.idxOf? name = some (names.idxOf name) := by
  rw [List.idxOf?, List.findIdx?_eq_guard_findIdx_lt, List.idxOf]
  exact if_pos (decide_eq_true (List.idxOf_lt_length_of_mem h))

theorem span?_ofRegex {t : Text} {w : Way} (h : r.first? t = some w) :
    (Program.ofRegex r).span? (w.slots r.groupNames) = w.spans := by
  funext name
  rw [Program.span?, Way.spans, show (Program.ofRegex r).names = r.groupNames from rfl]
  by_cases hname : name ∈ r.groupNames
  · simp only [idxOf?_of_mem hname, Option.bind_eq_bind, Option.bind_some,
      Way.getD_slots_begin hname, Way.getD_slots_end hname]
  · simp only [List.idxOf?_eq_none_iff.mpr hname, begins_of_first? h hname, Option.bind_eq_bind,
      Option.bind_none]

/-- **The built-in engine finds the first way** of an expression that it reads, if nothing that can
be empty is repeated. -/
theorem findsFirst_ofRegex {t : Text} (hread : read? t = some r) (hr : r.Advances) :
    (Program.ofRegex r).compiled.FindsFirst r := by
  intro t
  refine (congrArg (Option.map _) (search_ofRegex (nodup_groupNames hread) hr t)).trans ?_
  rw [Option.map_map]
  exact Option.map_congr fun w hw => span?_ofRegex hw

end Regex

end LintFindings
