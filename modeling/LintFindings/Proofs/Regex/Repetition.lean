/-
Repetitions that advance.

A repetition without a bound goes on as long as it takes characters, and there are only so many.
So if what is repeated takes a character each time (`Regex.Advances`), then its ways are those of
what is repeated, each followed by the ways of the repetition again, and the way that stops
(`Regex.anyTimes_eq`).
-/
import LintFindings.Proofs.Regex.Ways

namespace LintFindings.Regex

variable {w w' : Way} {part : Way → List Way} {greedy : Bool} {r : Regex} {m n : Nat}

/-- Something is taken on every way. -/
def Shortens (part : Way → List Way) : Prop :=
  ∀ w, ∀ w' ∈ part w, w'.rest.length < w.rest.length

/-- Nothing that can be empty is repeated. -/
def Advances : Regex → Prop
  | empty | set _ | look _ => True
  | group _ a => a.Advances
  | concat a b | alt a b => a.Advances ∧ b.Advances
  | loop _ _ _ a => a.canBeEmpty = false ∧ a.Advances

instance decidableAdvances : (r : Regex) → Decidable r.Advances
  | empty | set _ | look _ => inferInstanceAs (Decidable True)
  | group _ a => decidableAdvances a
  | concat a b | alt a b =>
    have := decidableAdvances a
    have := decidableAdvances b
    inferInstanceAs (Decidable (a.Advances ∧ b.Advances))
  | loop _ _ _ a =>
    have := decidableAdvances a
    inferInstanceAs (Decidable (a.canBeEmpty = false ∧ a.Advances))

theorem length_of_mem_times (hpart : ∀ w, ∀ w' ∈ part w, w'.rest.length ≤ w.rest.length)
    (h : w' ∈ times part n w) : w'.rest.length ≤ w.rest.length :=
  forall_times (P := fun v => v.rest.length ≤ w.rest.length)
    (fun v hv v' hv' => (hpart v v' hv').trans hv) le_rfl h

theorem length_of_mem_ways (h : w' ∈ r.ways w) : w'.rest.length ≤ w.rest.length := by
  refine forall_ways (P := fun v => v.rest.length ≤ w.rest.length) (Q := fun _ => True)
    ?_ ?_ ?_ ?_ w le_rfl w' h
  · intro v c t hv hrest
    rw [hrest, List.length_cons] at hv
    exact Nat.le_of_succ_le hv
  · exact fun v name _ hv => hv
  · exact fun v name _ hv => hv
  · exact fun _ _ => trivial

/-- What cannot be empty takes a character. -/
theorem shorter_of_mem_ways (hr : r.canBeEmpty = false) (h : w' ∈ r.ways w) :
    w'.rest.length < w.rest.length := by
  induction r generalizing w w' with
  | empty => cases hr
  | set s =>
      rw [ways, Way.step] at h
      split at h
      · rename_i c t hrest
        split at h
        · obtain rfl := List.mem_singleton.mp h
          rw [hrest, Way.rest_past, List.length_cons]
          exact Nat.lt_succ_self _
        · cases h
      · cases h
  | look l => cases hr
  | group name a ih =>
      cases name with
      | none => exact ih hr h
      | some name =>
          obtain ⟨v, hv, rfl⟩ := List.mem_map.mp h
          have hshort := ih hr hv
          rwa [Way.rest_enter] at hshort
  | concat a b iha ihb =>
      obtain ⟨v, hv, h⟩ := List.mem_flatMap.mp h
      obtain ha | hb := (Bool.and_eq_false_iff (x := a.canBeEmpty)).mp hr
      · exact (length_of_mem_ways h).trans_lt (iha ha hv)
      · exact (ihb hb h).trans_le (length_of_mem_ways hv)
  | alt a b iha ihb =>
      obtain ⟨ha, hb⟩ := (Bool.or_eq_false_iff (x := a.canBeEmpty)).mp hr
      exact (List.mem_append.mp h).elim (iha ha) (ihb hb)
  | loop min max greedy a ih =>
      obtain ⟨hmin, ha⟩ := (Bool.or_eq_false_iff (x := min == 0)).mp hr
      obtain ⟨v, hv, h⟩ := List.mem_flatMap.mp h
      have hle : ∀ v, ∀ v' ∈ a.ways v, v'.rest.length ≤ v.rest.length :=
        fun v v' => length_of_mem_ways
      have hupTo : w'.rest.length ≤ v.rest.length :=
        forall_upTo (P := fun u => u.rest.length ≤ v.rest.length)
          (fun u hu u' hu' => (hle u u' hu').trans hu) le_rfl h
      cases min with
      | zero => cases hmin
      | succ n =>
          obtain ⟨u, hu, hv⟩ := List.mem_flatMap.mp hv
          exact hupTo.trans_lt ((length_of_mem_times hle hv).trans_lt (ih ha hu))

theorem times_succ' : times part (n + 1) w = (times part n w).flatMap part := by
  induction n generalizing w with
  | zero => simp [times]
  | succ n ih =>
      rw [times, times, List.flatMap_assoc]
      congr 1
      funext v
      exact ih

/-- The ways of a repetition of what takes a character each time. -/
theorem upTo_succ (hpart : Shortens part) :
    upTo part greedy (n + 1) w =
      if greedy then (part w).flatMap (upTo part greedy n) ++ [w]
      else w :: (part w).flatMap (upTo part greedy n) := by
  have hmore : ((part w).flatMap fun w' =>
      if w'.rest.length < w.rest.length then upTo part greedy n w' else [w']) =
        (part w).flatMap (upTo part greedy n) :=
    List.flatMap_congr fun w' hw' => if_pos (hpart w w' hw')
  rw [upTo, hmore]

/-- More room than there are characters does not count. -/
theorem upTo_room (hpart : Shortens part) (hm : w.rest.length < m) (hn : w.rest.length < n) :
    upTo part greedy m w = upTo part greedy n w := by
  induction m generalizing n w with
  | zero => exact absurd hm (Nat.not_lt_zero _)
  | succ m ih =>
      cases n with
      | zero => exact absurd hn (Nat.not_lt_zero _)
      | succ n =>
          have hmore : (part w).flatMap (upTo part greedy m) =
              (part w).flatMap (upTo part greedy n) := by
            refine List.flatMap_congr fun w' hw' => ?_
            have hshort := hpart w w' hw'
            exact ih (by omega) (by omega)
          rw [upTo_succ hpart, upTo_succ hpart, hmore]

/-- A part is gone through any number of times. -/
def anyTimes (part : Way → List Way) (greedy : Bool) (w : Way) : List Way :=
  upTo part greedy (w.rest.length + 1) w

theorem anyTimes_eq (hpart : Shortens part) :
    anyTimes part greedy w =
      if greedy then (part w).flatMap (anyTimes part greedy) ++ [w]
      else w :: (part w).flatMap (anyTimes part greedy) := by
  have hmore : (part w).flatMap (upTo part greedy w.rest.length) =
      (part w).flatMap (anyTimes part greedy) :=
    List.flatMap_congr fun w' hw' => upTo_room hpart (hpart w w' hw') (Nat.lt_succ_self _)
  rw [anyTimes, upTo_succ hpart, hmore]

end LintFindings.Regex
