/-
The slots of a way.

A program keeps the beginnings and the ends of its groups in an array, two slots for each name.
No two groups have one name, so that to write a slot is to begin or to end one group.
-/
import LintFindings.Proofs.Regex.Ways

namespace LintFindings.Way

variable {names : List Text} {name : Text} {w : Way}

/-- Where the groups of some names begin and end. -/
def places (names : List Text) (w : Way) : List (Option Nat) :=
  names.flatMap fun name => [w.begins name, w.ends name]

/-- The slots of a way. -/
def slots (names : List Text) (w : Way) : Slots := (w.places names).toArray

section

variable {f g : Text → List (Option Nat)} {first : Text} {k : Nat} {x : Option Nat}
  (hf : ∀ other, (f other).length = 2)

include hf

theorem place_cons (hne : first ≠ name) : 2 * (first :: names).idxOf name + k =
    (f first).length + (2 * names.idxOf name + k) := by
  rw [List.idxOf_cons_ne _ hne, hf]
  omega

/-- Each name has its two places. -/
theorem getElem?_flatMap (hname : name ∈ names) (hk : k < 2) :
    (names.flatMap f)[2 * names.idxOf name + k]? = (f name)[k]? := by
  induction names with
  | nil => cases hname
  | cons first names ih =>
      rw [List.flatMap_cons]
      by_cases hne : first = name
      · subst hne
        rw [List.idxOf_cons_self, Nat.mul_zero, Nat.zero_add,
          List.getElem?_append_left (by rw [hf]; exact hk)]
      · rw [place_cons hf hne, List.getElem?_append_right (Nat.le_add_right _ _),
          Nat.add_sub_cancel_left, ih ((List.mem_cons.mp hname).resolve_left (Ne.symm hne))]

/-- Where one of two places of one name is written, the other names keep theirs. -/
theorem flatMap_set (hnames : names.Nodup) (hname : name ∈ names) (hk : k < 2)
    (hg : g name = (f name).set k x) (hother : ∀ other, other ≠ name → g other = f other) :
    names.flatMap g = (names.flatMap f).set (2 * names.idxOf name + k) x := by
  induction names with
  | nil => cases hname
  | cons first names ih =>
      obtain ⟨hfirst, hnames⟩ := List.nodup_cons.mp hnames
      rw [List.flatMap_cons, List.flatMap_cons]
      by_cases hne : first = name
      · subst hne
        have htail : names.flatMap g = names.flatMap f :=
          List.flatMap_congr fun other hmem => hother other (ne_of_mem_of_not_mem hmem hfirst)
        rw [htail, hg, List.idxOf_cons_self, Nat.mul_zero, Nat.zero_add,
          List.set_append_left _ _ (by rw [hf]; exact hk)]
      · have htail := ih hnames ((List.mem_cons.mp hname).resolve_left (Ne.symm hne))
        rw [htail, hother first hne, place_cons hf hne,
          List.set_append_right _ _ (Nat.le_add_right _ _), Nat.add_sub_cancel_left]

end

theorem getD_slots_begin (hname : name ∈ names) :
    (w.slots names).getD (2 * names.idxOf name) none = w.begins name := by
  have hplace := getElem?_flatMap (f := fun other => [w.begins other, w.ends other]) (k := 0)
    (fun _ => rfl) hname Nat.two_pos
  rw [Array.getD_eq_getD_getElem?, slots, List.getElem?_toArray]
  exact congrArg (Option.getD · none) hplace

theorem getD_slots_end (hname : name ∈ names) :
    (w.slots names).getD (2 * names.idxOf name + 1) none = w.ends name := by
  have hplace := getElem?_flatMap (f := fun other => [w.begins other, w.ends other]) (k := 1)
    (fun _ => rfl) hname Nat.one_lt_two
  rw [Array.getD_eq_getD_getElem?, slots, List.getElem?_toArray]
  exact congrArg (Option.getD · none) hplace

theorem slots_start (names : List Text) (passed rest : Text) :
    (start passed rest).slots names = Array.replicate (2 * names.length) none := by
  have hplaces : (start passed rest).places names = List.replicate (2 * names.length) none := by
    induction names with
    | nil => rfl
    | cons name names ih =>
        rw [places] at ih
        rw [places, List.flatMap_cons, ih]
        rfl
  rw [slots, hplaces, List.toArray_replicate]

theorem slots_enter (hnames : names.Nodup) (hname : name ∈ names) :
    (w.slots names).setIfInBounds (2 * names.idxOf name) (some w.index) =
      (w.enter name).slots names := by
  have hplaces := flatMap_set (f := fun other => [w.begins other, w.ends other])
    (g := fun other => [(w.enter name).begins other, w.ends other]) (k := 0) (x := some w.index)
    (fun _ => rfl) hnames hname Nat.two_pos (by simp [enter])
    (fun other hne => by simp [enter, hne])
  rw [slots, slots, List.setIfInBounds_toArray]
  exact congrArg _ hplaces.symm

theorem slots_leave (hnames : names.Nodup) (hname : name ∈ names) :
    (w.slots names).setIfInBounds (2 * names.idxOf name + 1) (some w.index) =
      (w.leave name).slots names := by
  have hplaces := flatMap_set (f := fun other => [w.begins other, w.ends other])
    (g := fun other => [w.begins other, (w.leave name).ends other]) (k := 1) (x := some w.index)
    (fun _ => rfl) hnames hname Nat.one_lt_two (by simp [leave])
    (fun other hne => by simp [leave, hne])
  rw [slots, slots, List.setIfInBounds_toArray]
  exact congrArg _ hplaces.symm

end LintFindings.Way
