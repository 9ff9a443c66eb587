/-
What an expression means.

A `Way` is how far an expression has come in a text: what it has passed, what lies ahead, and
where its groups began and ended last.  `Regex.ways` lists the ways on which an expression can go
on, the preferred one first: of alternatives the first one comes first, and a repetition goes on
as long as it can if it is greedy, and stops as soon as it can if it is lazy.  A repetition that
took nothing is the last one.  What is found in a text is the first way from the first place that
has one (`Regex.first?`), and an engine that has compiled the expression finds this
(`CompiledRegex.FindsFirst`).
-/
import LintFindings.Regex.Engine
import LintFindings.Proofs.Text
import Mathlib.Logic.Function.Basic

namespace LintFindings

/-! ### Ways -/

/-- How far an expression has come: what it has passed, the last character first, what lies
ahead, and where its groups began and ended last. -/
structure Way where
  passed : Text
  rest : Text
  begins : Text → Option Nat
  ends : Text → Option Nat

namespace Way

variable {w : Way} {s : CharSet} {c : Char} {t u v name : Text}

/-- A way that begins at a place of a text. -/
def start (passed rest : Text) : Way := ⟨passed, rest, fun _ => none, fun _ => none⟩

/-- The place that a way has come to. -/
def index (w : Way) : Nat := w.passed.length

/-- The text that a way goes through. -/
def text (w : Way) : Text := w.passed.reverse ++ w.rest

/-- A group begins. -/
def enter (w : Way) (name : Text) : Way :=
  { w with begins := Function.update w.begins name (some w.index) }

/-- A group ends. -/
def leave (w : Way) (name : Text) : Way :=
  { w with ends := Function.update w.ends name (some w.index) }

/-- Takes `u` and has `v` ahead then. -/
def past (w : Way) (u v : Text) : Way := { w with passed := u.reverse ++ w.passed, rest := v }

/-- Takes one character, if it is one of a set. -/
def step (s : CharSet) (w : Way) : List Way :=
  match w.rest with
  | c :: rest => if s.mem c then [w.past [c] rest] else []
  | [] => []

/-- Where the groups that took part are. -/
def spans (w : Way) : Spans := fun name => do return (← w.begins name, ← w.ends name)

/-- What the groups that took part took of the text. -/
def captured (w : Way) (name : Text) : Option Text :=
  (w.spans name).map fun (first, last) => slice w.text first last

@[simp] theorem rest_start (passed rest : Text) : (start passed rest).rest = rest := rfl

@[simp] theorem rest_enter : (w.enter name).rest = w.rest := rfl

@[simp] theorem rest_leave : (w.leave name).rest = w.rest := rfl

@[simp] theorem rest_past : (w.past u v).rest = v := rfl

theorem past_nil (h : w.rest = t) : w.past [] t = w := by
  rw [← h]
  rfl

@[simp] theorem past_past {u' v' : Text} : (w.past u v).past u' v' = w.past (u ++ u') v' := by
  simp [past]

theorem step_nil (h : w.rest = []) : w.step s = [] := by
  rw [step, h]

theorem step_cons (h : w.rest = c :: t) :
    w.step s = if s.mem c then [w.past [c] t] else [] := by
  rw [step, h]

theorem text_past (h : w.rest = u ++ v) : (w.past u v).text = w.text := by
  simp [text, past, h]

/-- What was captured stays so. -/
theorem captured_past (h : w.rest = u ++ v) : (w.past u v).captured = w.captured := by
  unfold captured
  rw [text_past h]
  rfl

/-- A group captures what is taken between its begin and its end. -/
theorem captured_group (h : w.rest = u ++ v) (name : Text) :
    (((w.enter name).past u v).leave name).captured =
      Function.update w.captured name (some u) := by
  have htext : (((w.enter name).past u v).leave name).text = w.passed.reverse ++ u ++ v := by
    simp [text, leave, past, enter]
  have htext' : w.text = w.passed.reverse ++ u ++ v := by rw [text, h, List.append_assoc]
  funext other
  unfold captured
  rw [htext, htext']
  by_cases hname : other = name
  · subst hname
    have hslice : slice (w.passed.reverse ++ u ++ v) w.passed.length
        (u.length + w.passed.length) = u := by
      rw [slice, Nat.add_sub_cancel, List.append_assoc, List.drop_left' (List.length_reverse ..),
        List.take_left]
    simpa [spans, leave, past, enter, index] using hslice
  · simp [spans, leave, past, enter, hname]

end Way

/-! ### The ways of an expression -/

namespace Regex

/-- A part is gone through `n` times. -/
def times (part : Way → List Way) : Nat → Way → List Way
  | 0, w => [w]
  | n + 1, w => (part w).flatMap (times part n)

/-- A part is gone through at most `n` times; if it took nothing, then not once more. -/
def upTo (part : Way → List Way) (greedy : Bool) : Nat → Way → List Way
  | 0, w => [w]
  | n + 1, w =>
    let more := (part w).flatMap fun w' =>
      if w'.rest.length < w.rest.length then upTo part greedy n w' else [w']
    if greedy then more ++ [w] else w :: more

/-- The ways on which an expression can go on, the preferred one first.  A part that takes a
character each time cannot be gone through more often than there are characters. -/
def ways : Regex → Way → List Way
  | .empty, w => [w]
  | .set s, w => w.step s
  | .look l, w => if l.holds w.passed.head? w.rest.head? then [w] else []
  | .group none a, w => a.ways w
  | .group (some name) a, w => (a.ways (w.enter name)).map (·.leave name)
  | .concat a b, w => (a.ways w).flatMap b.ways
  | .alt a b, w => a.ways w ++ b.ways w
  | .loop min max greedy a, w =>
    (times a.ways min w).flatMap fun w' =>
      upTo a.ways greedy (max.elim (w'.rest.length + 1) (· - min)) w'

/-- The first way from the first place that has one. -/
def firstFrom (r : Regex) (passed : Text) : (rest : Text) → Option Way
  | [] => (r.ways (.start passed [])).head?
  | c :: rest => (r.ways (.start passed (c :: rest))).head?.or (r.firstFrom (c :: passed) rest)

/-- What is found in a text. -/
def first? (r : Regex) (t : Text) : Option Way := r.firstFrom [] t

/-! ### Every way -/

section

variable {P : Way → Prop} {part : Way → List Way} {r : Regex} {w w' : Way} {t name : Text} {n : Nat}

theorem forall_times (hpart : ∀ w, P w → ∀ w' ∈ part w, P w') (hw : P w)
    (h : w' ∈ times part n w) : P w' := by
  induction n generalizing w with
  | zero =>
      obtain rfl := List.mem_singleton.mp h
      exact hw
  | succ n ih =>
      obtain ⟨v, hv, h⟩ := List.mem_flatMap.mp h
      exact ih (hpart w hw v hv) h

theorem forall_upTo {greedy : Bool} (hpart : ∀ w, P w → ∀ w' ∈ part w, P w') (hw : P w)
    (h : w' ∈ upTo part greedy n w) : P w' := by
  induction n generalizing w with
  | zero =>
      obtain rfl := List.mem_singleton.mp h
      exact hw
  | succ n ih =>
      have hmore : w' = w ∨ w' ∈ (part w).flatMap fun v =>
          if v.rest.length < w.rest.length then upTo part greedy n v else [v] := by
        cases greedy
        · exact List.mem_cons.mp h
        · exact (List.mem_append.mp h).symm.imp_left List.mem_singleton.mp
      obtain rfl | hmore := hmore
      · exact hw
      · obtain ⟨v, hv, h⟩ := List.mem_flatMap.mp hmore
        split at h
        · exact ih (hpart w hw v hv) h
        · exact List.mem_singleton.mp h ▸ hpart w hw v hv

/-- What characters and groups leave as it is holds on every way. -/
theorem forall_ways {Q : Text → Prop} (hstep : ∀ w c t, P w → w.rest = c :: t → P (w.past [c] t))
    (henter : ∀ w name, Q name → P w → P (w.enter name))
    (hleave : ∀ w name, Q name → P w → P (w.leave name)) (hr : ∀ name ∈ r.groupNames, Q name) :
    ∀ w, P w → ∀ w' ∈ r.ways w, P w' := by
  induction r with
  | empty =>
      intro w hw w' h
      obtain rfl := List.mem_singleton.mp h
      exact hw
  | set s =>
      intro w hw w' h
      rw [ways, Way.step] at h
      split at h
      · rename_i c t hrest
        split at h
        · obtain rfl := List.mem_singleton.mp h
          exact hstep w c t hw hrest
        · cases h
      · cases h
  | look l =>
      intro w hw w' h
      rw [ways] at h
      split at h
      · obtain rfl := List.mem_singleton.mp h
        exact hw
      · cases h
  | group name a ih =>
      intro w hw w' h
      cases name with
      | none => exact ih hr w hw w' h
      | some name =>
          obtain ⟨hname, hr⟩ := List.forall_mem_cons.mp hr
          obtain ⟨v, hv, rfl⟩ := List.mem_map.mp h
          exact hleave v name hname (ih hr _ (henter w name hname hw) v hv)
  | concat a b iha ihb =>
      intro w hw w' h
      obtain ⟨ha, hb⟩ := List.forall_mem_append.mp hr
      obtain ⟨v, hv, h⟩ := List.mem_flatMap.mp h
      exact ihb hb v (iha ha w hw v hv) w' h
  | alt a b iha ihb =>
      intro w hw w' h
      obtain ⟨ha, hb⟩ := List.forall_mem_append.mp hr
      obtain h | h := List.mem_append.mp h
      · exact iha ha w hw w' h
      · exact ihb hb w hw w' h
  | loop min max greedy a ih =>
      intro w hw w' h
      obtain ⟨v, hv, h⟩ := List.mem_flatMap.mp h
      exact forall_upTo (ih hr) (forall_times (ih hr) hw hv) h

/-- Every way is a way through the same text. -/
theorem text_of_mem_ways (h : w' ∈ r.ways w) : w'.text = w.text := by
  refine forall_ways (P := fun v => v.text = w.text) (Q := fun _ => True) ?_ ?_ ?_ ?_ w rfl w' h
  · intro v c t hv hrest
    rw [← hv]
    exact Way.text_past (u := [c]) hrest
  · exact fun v name _ hv => hv
  · exact fun v name _ hv => hv
  · exact fun _ _ => trivial

/-- Only the groups of an expression begin on its ways. -/
theorem begins_of_mem_ways (h : w' ∈ r.ways w) (hname : name ∉ r.groupNames) :
    w'.begins name = w.begins name := by
  refine forall_ways (P := fun v => v.begins name = w.begins name) (Q := fun other => other ≠ name)
    ?_ ?_ ?_ ?_ w rfl w' h
  · exact fun v c t hv _ => hv
  · exact fun v other hne hv => (Function.update_of_ne (Ne.symm hne) ..).trans hv
  · exact fun v other _ hv => hv
  · exact fun other hmem => ne_of_mem_of_not_mem hmem hname

theorem exists_of_firstFrom {passed rest : Text} (h : r.firstFrom passed rest = some w) :
    ∃ u v, u.reverse ++ v = passed.reverse ++ rest ∧ w ∈ r.ways (.start u v) := by
  induction rest generalizing passed with
  | nil => exact ⟨passed, [], rfl, List.mem_of_mem_head? h⟩
  | cons c rest ih =>
      obtain h | ⟨-, h⟩ := Option.or_eq_some_iff.mp h
      · exact ⟨passed, c :: rest, rfl, List.mem_of_mem_head? h⟩
      · obtain ⟨u, v, htext, hw⟩ := ih h
        exact ⟨u, v, by rw [htext, List.reverse_cons, List.append_assoc]; rfl, hw⟩

theorem text_of_first? (h : r.first? t = some w) : w.text = t := by
  obtain ⟨u, v, htext, hw⟩ := exists_of_firstFrom h
  exact (text_of_mem_ways hw).trans htext

/-- What is found has begun only groups of the expression. -/
theorem begins_of_first? (h : r.first? t = some w) (hname : name ∉ r.groupNames) :
    w.begins name = none := by
  obtain ⟨u, v, -, hw⟩ := exists_of_firstFrom h
  exact begins_of_mem_ways hw hname

end

end Regex

/-! ### Engines -/

/-- An engine has compiled an expression: what it finds is the first way. -/
def CompiledRegex.FindsFirst (c : CompiledRegex) (r : Regex) : Prop :=
  ∀ t, c.find? t = (r.first? t).map Way.spans

theorem captures?_of_findsFirst {c : CompiledRegex} {r : Regex} (h : c.FindsFirst r) (t : Text) :
    c.captures? t = (r.first? t).map Way.captured := by
  rw [CompiledRegex.captures?, h t, Option.map_map]
  refine Option.map_congr fun w hw => ?_
  funext name
  rw [Way.captured, Regex.text_of_first? hw]
  rfl

end LintFindings
