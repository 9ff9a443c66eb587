/-
What an expression finds.

Mostly one asks for the first of the ways that has some answer, and not for their list.
`Regex.answer?` is that answer, and has an equation for each kind of expression.  Of a run of
characters one has to know where it ends.  If nothing is found within it, it is taken whole
(`answer?_run`).  Otherwise a greedy run ends at the last place behind which something is found
(`answer?_greedy`), and a lazy one at the first (`answer?_lazy`).
-/
import LintFindings.Proofs.Regex.Ways

namespace LintFindings

/-! ### Sets -/

namespace CharSet

variable {s : CharSet} {sets : List CharSet} {c d : Char}

@[simp] theorem mem_single : (single c).mem d = (d == c) := by
  have hiff : c.toNat ≤ d.toNat ∧ d.toNat ≤ c.toNat ↔ d = c := by
    rw [← Char.toNat_inj]
    omega
  rw [single, mem, Bool.eq_iff_iff, Bool.and_eq_true, decide_eq_true_eq, decide_eq_true_eq, hiff,
    beq_iff_eq]

@[simp] theorem mem_unions : (unions sets).mem c = sets.any (·.mem c) := by
  induction sets with
  | nil => rfl
  | cons s sets ih => exact congrArg (s.mem c || ·) ih

@[simp] theorem mem_compl : (compl s).mem c = !s.mem c := rfl

@[simp] theorem mem_blank : blank.mem c = isBlank c := rfl

@[simp] theorem mem_digit : digit.mem c = Unicode.isDecimalDigit c := rfl

@[simp] theorem mem_word : word.mem c = Unicode.isWordChar c := rfl

@[simp] theorem mem_asciiDigit : (range 0x30 0x39).mem c = c.isDigit := by
  simp [mem, Char.isDigit, UInt32.le_iff_toNat_le]

@[simp] theorem mem_asciiUpper : (range 0x41 0x5A).mem c = c.isUpper := by
  delta Char.isUpper
  simp [mem, UInt32.le_iff_toNat_le]

end CharSet

/-! ### The first answer -/

namespace Regex

/-- The first answer on the ways of an expression. -/
def answer? {β : Type} (r : Regex) (k : Way → Option β) (w : Way) : Option β :=
  (r.ways w).findSome? k

/-- Expressions one after the other. -/
def seq (rs : List Regex) : Regex := rs.foldr concat empty

/-- The first of some expressions that goes on. -/
def oneOf : List Regex → Regex
  | [] => empty
  | [r] => r
  | r :: rs => alt r (oneOf rs)

/-- A character that stands for itself. -/
def sign (c : Char) : Regex := set (.single c)

/-- Any number of characters of a set. -/
def many (s : CharSet) : Regex := loop 0 none true (set s)

/-- At least one character of a set. -/
def several (s : CharSet) : Regex := loop 1 none true (set s)

/-- Expressions that may be missing. -/
def maybe (rs : List Regex) : Regex := loop 0 (some 1) true (group none (seq rs))

/-- A group with a name. -/
def named (name : String) (r : Regex) : Regex := group (some name.toList) r

section

variable {β : Type} {a b r : Regex} {rs : List Regex} {s s' : CharSet} {k : Way → Option β} {w : Way}
  {c : Char} {t u v name : Text}

theorem findSome?_cons_or {α : Type} (f : α → Option β) (x : α) (l : List α) :
    (x :: l).findSome? f = (f x).or (l.findSome? f) := by
  rw [List.findSome?_cons]
  cases f x <;> rfl

theorem findSome?_flatMap {α γ : Type} (l : List α) (f : α → List γ) (g : γ → Option β) :
    (l.flatMap f).findSome? g = l.findSome? fun x => (f x).findSome? g := by
  induction l with
  | nil => rfl
  | cons x l ih =>
      rw [List.flatMap_cons, List.findSome?_append, ih,
        findSome?_cons_or fun x => (f x).findSome? g]

theorem findSome?_eq_of_unique {α : Type} {f : α → Option β} {x : α} {l : List α} (hx : x ∈ l)
    (h : ∀ y ∈ l, y ≠ x → f y = none) : l.findSome? f = f x := by
  cases hfound : l.findSome? f with
  | none => exact (List.findSome?_eq_none_iff.mp hfound x hx).symm
  | some b =>
      obtain ⟨y, hy, hb⟩ := List.exists_of_findSome?_eq_some hfound
      by_cases hyx : y = x
      · rw [← hyx, hb]
      · cases hb.symm.trans (h y hy hyx)

@[simp] theorem answer?_empty : empty.answer? k w = k w := by simp [answer?, ways]

theorem answer?_set_cons (h : w.rest = c :: t) :
    (set s).answer? k w = if s.mem c then k (w.past [c] t) else none := by
  rw [answer?, ways, Way.step_cons h]
  split <;> simp

theorem answer?_set_nil (h : w.rest = []) : (set s).answer? k w = none := by
  rw [answer?, ways, Way.step_nil h]
  rfl

theorem answer?_set_none (h : ∀ c ∈ w.rest.head?, s.mem c = false) :
    (set s).answer? k w = none := by
  cases ht : w.rest with
  | nil => exact answer?_set_nil ht
  | cons c t =>
      rw [ht] at h
      rw [answer?_set_cons ht, if_neg (Bool.eq_false_iff.mp (h c rfl))]

theorem exists_of_answer?_set {b : β} (h : (set s).answer? k w = some b) :
    ∃ c t, w.rest = c :: t ∧ s.mem c = true ∧ k (w.past [c] t) = some b := by
  cases ht : w.rest with
  | nil =>
      rw [answer?_set_nil ht] at h
      cases h
  | cons c t =>
      rw [answer?_set_cons ht] at h
      split at h
      · rename_i hc
        exact ⟨c, t, rfl, hc, h⟩
      · cases h

theorem answer?_sign : (sign c).answer? k w =
    (Text.after? [c] w.rest).bind fun v => k (w.past [c] v) := by
  cases ht : w.rest with
  | nil => exact answer?_set_nil ht
  | cons d t =>
      rw [sign, answer?_set_cons ht, CharSet.mem_single]
      by_cases hc : c = d
      · subst hc
        simp [Text.after?]
      · simp [Text.after?, hc, Ne.symm hc]

theorem answer?_look (l : Look) :
    (look l).answer? k w = if l.holds w.passed.head? w.rest.head? then k w else none := by
  rw [answer?, ways]
  split <;> simp

@[simp] theorem answer?_group_none : (group none a).answer? k w = a.answer? k w := rfl

@[simp] theorem answer?_group_some :
    (group (some name) a).answer? k w = a.answer? (fun w' => k (w'.leave name)) (w.enter name) := by
  rw [answer?, ways, List.findSome?_map]
  rfl

@[simp] theorem answer?_concat : (concat a b).answer? k w = a.answer? (b.answer? k) w := by
  rw [answer?, ways, findSome?_flatMap]
  rfl

@[simp] theorem answer?_alt : (alt a b).answer? k w = (a.answer? k w).or (b.answer? k w) := by
  rw [answer?, ways, List.findSome?_append]
  rfl

@[simp] theorem answer?_seq_nil : (seq []).answer? k = k := funext fun _ => answer?_empty

@[simp] theorem answer?_seq_cons : (seq (r :: rs)).answer? k = r.answer? ((seq rs).answer? k) :=
  funext fun _ => answer?_concat

theorem answer?_seq_append {rs' : List Regex} :
    (seq (rs ++ rs')).answer? k = (seq rs).answer? ((seq rs').answer? k) := by
  induction rs with
  | nil => exact answer?_seq_nil.symm
  | cons r rs ih => rw [List.cons_append, answer?_seq_cons, answer?_seq_cons, ih]

/-- A text that stands for itself. -/
theorem answer?_signs : (seq (u.map sign)).answer? k w =
    (Text.after? u w.rest).bind fun v => k (w.past u v) := by
  induction u generalizing w with
  | nil => simp [Text.after?, Way.past_nil]
  | cons c u ih =>
      rw [List.map_cons, answer?_seq_cons, answer?_sign]
      cases ht : w.rest with
      | nil => rfl
      | cons d t =>
          by_cases hc : c = d
          · subst hc
            simp [Text.after?, ih]
          · simp [Text.after?, hc]

theorem answer?_oneOf (h : rs ≠ []) :
    (oneOf rs).answer? k w = rs.findSome? fun r => r.answer? k w := by
  induction rs with
  | nil => exact absurd rfl h
  | cons r rs ih =>
      cases rs with
      | nil => simp [oneOf]
      | cons r' rs =>
          have hfirst : oneOf (r :: r' :: rs) = alt r (oneOf (r' :: rs)) := rfl
          rw [hfirst, answer?_alt, ih (List.cons_ne_nil _ _), findSome?_cons_or _ r]

theorem upTo_one (part : Way → List Way) (greedy : Bool) (w : Way) :
    upTo part greedy 1 w = if greedy then part w ++ [w] else w :: part w := by
  have hmore : ((part w).flatMap fun w' =>
      if w'.rest.length < w.rest.length then upTo part greedy 0 w' else [w']) = part w := by
    simp [upTo]
  rw [upTo, hmore]

/-- An optional part is gone through if it can be. -/
theorem answer?_loop_optional :
    (loop 0 (some 1) true a).answer? k w = (a.answer? k w).or (k w) := by
  rw [answer?, ways, times, List.flatMap_singleton, Option.elim_some, upTo_one, if_pos rfl,
    List.findSome?_append]
  simp [answer?]

theorem answer?_maybe :
    (maybe rs).answer? k w = ((seq rs).answer? k w).or (k w) := answer?_loop_optional

/-- One or more repetitions are one and then any number of them. -/
theorem answer?_loop_one (greedy : Bool) : (loop 1 none greedy a).answer? k w =
    a.answer? ((loop 0 none greedy a).answer? k) w := by
  have htimes : times a.ways 1 w = a.ways w := by simp [times]
  have hmany : (loop 0 none greedy a).answer? k = fun w' =>
      (upTo a.ways greedy (w'.rest.length + 1) w').findSome? k := by
    funext w'
    simp [answer?, ways, times]
  rw [answer?, ways, htimes, findSome?_flatMap, hmany]
  rfl

/-- What begins at the beginning of the text is looked for there only. -/
theorem map_first?_of_textStart (f : Way → β) :
    ((seq (look .textStart :: rs)).first? t).map f =
      (seq rs).answer? (fun w => some (f w)) (.start [] t) := by
  have hhead (w : Way) : ((seq (look .textStart :: rs)).ways w).head?.map f =
      (seq (look .textStart :: rs)).answer? (fun w => some (f w)) w := by
    rw [answer?]
    cases (seq (look .textStart :: rs)).ways w <;> simp
  have hlater (passed rest : Text) (hne : passed ≠ []) :
      (seq (look .textStart :: rs)).firstFrom passed rest = none := by
    have hnone (rest : Text) (c : Char) (passed : Text) :
        (seq (look .textStart :: rs)).ways (.start (c :: passed) rest) = [] := rfl
    induction rest generalizing passed with
    | nil =>
        obtain ⟨c, passed, rfl⟩ := List.ne_nil_iff_exists_cons.mp hne
        rw [firstFrom, hnone, List.head?_nil]
    | cons d rest ih =>
        obtain ⟨c, passed, rfl⟩ := List.ne_nil_iff_exists_cons.mp hne
        rw [firstFrom, hnone, ih _ (List.cons_ne_nil _ _), List.head?_nil, Option.or_none]
  have hfirst : (seq (look .textStart :: rs)).first? t =
      ((seq (look .textStart :: rs)).ways (.start [] t)).head? := by
    cases t with
    | nil => rfl
    | cons c t => rw [first?, firstFrom, hlater _ _ (List.cons_ne_nil _ _), Option.or_none]
  rw [hfirst, hhead, answer?_seq_cons, answer?_look]
  rfl

/-! ### Runs of characters -/

theorem answer?_run_nil (greedy : Bool) (h : w.rest = []) :
    (loop 0 none greedy (set s)).answer? k w = k w := by
  rw [answer?, ways, times, List.flatMap_singleton, h]
  cases greedy <;> simp [upTo, ways, Way.step_nil h]

/-- One more character of a run is taken before it is left, or after. -/
theorem answer?_run_cons (greedy : Bool) (h : w.rest = c :: t) :
    (loop 0 none greedy (set s)).answer? k w =
      if s.mem c then
        let more := (loop 0 none greedy (set s)).answer? k (w.past [c] t)
        if greedy then more.or (k w) else (k w).or more
      else k w := by
  rw [answer?, ways, times, List.flatMap_singleton, Option.elim_none, upTo, ways, Way.step_cons h]
  by_cases hc : s.mem c = true
  · have hmore : (loop 0 none greedy (set s)).answer? k (w.past [c] t) =
        (upTo (set s).ways greedy w.rest.length (w.past [c] t)).findSome? k := by
      simp [answer?, ways, times, h]
    have hlt : (w.past [c] t).rest.length < w.rest.length := by simp [h]
    rw [if_pos hc, if_pos hc, List.flatMap_singleton, if_pos hlt, hmore]
    cases greedy
    · exact findSome?_cons_or k w _
    · simp [List.findSome?_append]
  · rw [if_neg hc, if_neg hc]
    cases greedy <;> simp

/-- What is found behind a run is found behind some part of it. -/
theorem exists_of_answer?_run {greedy : Bool} {b : β}
    (h : (loop 0 none greedy (set s)).answer? k w = some b) :
    ∃ u v, w.rest = u ++ v ∧ (∀ c ∈ u, s.mem c = true) ∧ k (w.past u v) = some b := by
  generalize ht : w.rest = t
  induction t generalizing w with
  | nil =>
      rw [answer?_run_nil greedy ht] at h
      exact ⟨[], [], rfl, nofun, by rwa [Way.past_nil ht]⟩
  | cons c t ih =>
      have hstay (hk : k w = some b) : ∃ u v, c :: t = u ++ v ∧ (∀ c ∈ u, s.mem c = true) ∧
          k (w.past u v) = some b := ⟨[], c :: t, rfl, nofun, by rwa [Way.past_nil ht]⟩
      rw [answer?_run_cons greedy ht] at h
      split at h
      · rename_i hc
        have hgo (hmore : (loop 0 none greedy (set s)).answer? k (w.past [c] t) = some b) :
            ∃ u v, c :: t = u ++ v ∧ (∀ c ∈ u, s.mem c = true) ∧ k (w.past u v) = some b := by
          obtain ⟨u, v, rfl, hu, hk⟩ := ih hmore rfl
          exact ⟨c :: u, v, rfl, List.forall_mem_cons.mpr ⟨hc, hu⟩, by rwa [Way.past_past] at hk⟩
        cases greedy
        · exact (Option.or_eq_some_iff.mp h).elim hstay fun h => hgo h.2
        · exact (Option.or_eq_some_iff.mp h).elim hgo fun h => hstay h.2
      · exact hstay h

theorem exists_of_answer?_run_one {greedy : Bool} {b : β}
    (h : (loop 1 none greedy (set s)).answer? k w = some b) :
    ∃ u v, w.rest = u ++ v ∧ u ≠ [] ∧ (∀ c ∈ u, s.mem c = true) ∧ k (w.past u v) = some b := by
  rw [answer?_loop_one] at h
  obtain ⟨c, t, hrest, hc, h⟩ := exists_of_answer?_set h
  obtain ⟨u, v, rfl, hu, h⟩ := exists_of_answer?_run h
  rw [Way.past_past] at h
  exact ⟨c :: u, v, hrest, List.cons_ne_nil c u, List.forall_mem_cons.mpr ⟨hc, hu⟩, h⟩

/-- Where something is found behind a part of a run, something is found behind the run. -/
theorem isSome_answer?_run {greedy : Bool} (h : w.rest = u ++ v) (hu : ∀ c ∈ u, s.mem c = true)
    (hk : (k (w.past u v)).isSome = true) :
    ((loop 0 none greedy (set s)).answer? k w).isSome = true := by
  induction u generalizing w with
  | nil =>
      rw [List.nil_append] at h
      rw [Way.past_nil h] at hk
      cases v with
      | nil => rwa [answer?_run_nil greedy h]
      | cons c t =>
          rw [answer?_run_cons greedy h]
          cases greedy <;> split <;> simp [Option.isSome_or, hk]
  | cons c u ih =>
      have hmore := ih (w := w.past [c] (u ++ v)) rfl
        (fun d hd => hu d (List.mem_cons_of_mem c hd)) (by rwa [Way.past_past])
      rw [answer?_run_cons greedy h, if_pos (hu c List.mem_cons_self)]
      cases greedy <;> simp [Option.isSome_or, hmore]

theorem isSome_answer?_run_one {greedy : Bool} (h : w.rest = u ++ v) (hne : u ≠ [])
    (hu : ∀ c ∈ u, s.mem c = true) (hk : (k (w.past u v)).isSome = true) :
    ((loop 1 none greedy (set s)).answer? k w).isSome = true := by
  obtain ⟨c, u, rfl⟩ := List.ne_nil_iff_exists_cons.mp hne
  rw [answer?_loop_one, answer?_set_cons h, if_pos (hu c List.mem_cons_self)]
  refine isSome_answer?_run (w := w.past [c] (u ++ v)) rfl
    (fun d hd => hu d (List.mem_cons_of_mem c hd)) ?_
  rwa [Way.past_past]

/-- Answers only where a character of a set is next. -/
def Begins (k : Way → Option β) (s : CharSet) : Prop :=
  ∀ w, (∀ c ∈ w.rest.head?, s.mem c = false) → k w = none

theorem begins_set : Begins ((set s).answer? k) s := fun _ => answer?_set_none

theorem begins_sign : Begins ((sign c).answer? k) (.single c) := begins_set

theorem begins_run_one {greedy : Bool} : Begins ((loop 1 none greedy (set s)).answer? k) s := by
  intro w hw
  rw [answer?_loop_one, answer?_set_none hw]

theorem begins_several : Begins ((several s).answer? k) s := begins_run_one

theorem Begins.mono (h : Begins k s) (hs : ∀ c, s.mem c = true → s'.mem c = true) : Begins k s' := by
  refine fun w hw => h w fun c hc => ?_
  have hmem := mt (hs c) (Bool.eq_false_iff.mp (hw c hc))
  exact eq_false_of_ne_true hmem

theorem begins_loop_optional (h : Begins (a.answer? k) s) (hk : Begins k s) :
    Begins ((loop 0 (some 1) true a).answer? k) s := by
  intro w hw
  rw [answer?_loop_optional, h w hw, hk w hw, Option.none_or]

theorem begins_maybe (h : Begins ((seq rs).answer? k) s) (hk : Begins k s) :
    Begins ((maybe rs).answer? k) s := begins_loop_optional h hk

theorem begins_seq_cons (h : Begins (r.answer? ((seq rs).answer? k)) s) :
    Begins ((seq (r :: rs)).answer? k) s := by
  intro w hw
  rw [answer?_seq_cons, h w hw]

theorem begins_signs : Begins ((seq ((c :: u).map sign)).answer? k) (.single c) :=
  begins_seq_cons begins_sign

theorem begins_named {group : String}
    (h : Begins (r.answer? fun w => k (w.leave group.toList)) s) :
    Begins ((named group r).answer? k) s := by
  intro w hw
  rw [named, answer?_group_some]
  exact h (w.enter group.toList) hw

/-- A run is taken whole where no answer begins within it. -/
theorem answer?_run {greedy : Bool} (hk : Begins k s')
    (hs : ∀ c, s.mem c = true → s'.mem c = false) :
    (loop 0 none greedy (set s)).answer? k w =
      k (w.past (w.rest.takeWhile s.mem) (w.rest.dropWhile s.mem)) := by
  generalize ht : w.rest = t
  induction t generalizing w with
  | nil =>
      rw [answer?_run_nil greedy ht, List.takeWhile_nil, List.dropWhile_nil, Way.past_nil ht]
  | cons c t ih =>
      rw [answer?_run_cons greedy ht]
      by_cases hc : s.mem c = true
      · have hstay : k w = none := by
          apply hk
          rw [ht]
          exact Text.head?_cons_of (hs c hc)
        have hmore := ih (w := w.past [c] t) rfl
        rw [Way.past_past] at hmore
        rw [if_pos hc, hstay, hmore, List.takeWhile_cons_of_pos hc, List.dropWhile_cons_of_pos hc]
        cases greedy <;> simp
      · rw [if_neg hc, List.takeWhile_cons_of_neg hc, List.dropWhile_cons_of_neg hc,
          Way.past_nil ht]

theorem answer?_run_append {greedy : Bool} (hk : Begins k s')
    (hs : ∀ c, s.mem c = true → s'.mem c = false) (h : w.rest = u ++ v)
    (hu : ∀ c ∈ u, s.mem c = true) (hv : ∀ c ∈ v.head?, s.mem c = false) :
    (loop 0 none greedy (set s)).answer? k w = k (w.past u v) := by
  rw [answer?_run hk hs, h, Text.takeWhile_run hu hv, Text.dropWhile_run hu hv]

/-- A run that has to take something is taken whole where no answer begins within it. -/
theorem answer?_run_one {greedy : Bool} (hk : Begins k s')
    (hs : ∀ c, s.mem c = true → s'.mem c = false) :
    (loop 1 none greedy (set s)).answer? k w =
      if w.rest.takeWhile s.mem = [] then none
      else k (w.past (w.rest.takeWhile s.mem) (w.rest.dropWhile s.mem)) := by
  rw [answer?_loop_one]
  cases ht : w.rest with
  | nil => rw [answer?_set_nil ht, List.takeWhile_nil, if_pos rfl]
  | cons c t =>
      rw [answer?_set_cons ht]
      by_cases hc : s.mem c = true
      · rw [if_pos hc, answer?_run hk hs, Way.past_past, List.takeWhile_cons_of_pos hc,
          List.dropWhile_cons_of_pos hc, if_neg (List.cons_ne_nil _ _)]
        rfl
      · rw [if_neg hc, List.takeWhile_cons_of_neg hc, if_pos rfl]

theorem answer?_run_one_append {greedy : Bool} (hk : Begins k s')
    (hs : ∀ c, s.mem c = true → s'.mem c = false) (h : w.rest = u ++ v) (hne : u ≠ [])
    (hu : ∀ c ∈ u, s.mem c = true) (hv : ∀ c ∈ v.head?, s.mem c = false) :
    (loop 1 none greedy (set s)).answer? k w = k (w.past u v) := by
  rw [answer?_run_one hk hs, h, Text.takeWhile_run hu hv, Text.dropWhile_run hu hv, if_neg hne]

/-- A greedy run ends where something is found, if nothing is behind any more of it. -/
theorem answer?_greedy (h : w.rest = u ++ v) (hu : ∀ c ∈ u, s.mem c = true)
    (hmore : ∀ a b, v = a ++ b → a ≠ [] → (∀ c ∈ a, s.mem c = true) → k (w.past (u ++ a) b) = none)
    (hk : (k (w.past u v)).isSome = true ∨
      ∀ a b, u = a ++ b → b ≠ [] → k (w.past a (b ++ v)) = none) :
    (loop 0 none true (set s)).answer? k w = k (w.past u v) := by
  induction u generalizing w with
  | nil =>
      rw [List.nil_append] at h
      rw [Way.past_nil h]
      cases v with
      | nil => rw [answer?_run_nil true h]
      | cons c t =>
          rw [answer?_run_cons true h]
          split
          · rename_i hc
            have hnone : (loop 0 none true (set s)).answer? k (w.past [c] t) = none := by
              rw [Option.eq_none_iff_forall_ne_some]
              intro b hb
              obtain ⟨u, v, rfl, hu, hfound⟩ := exists_of_answer?_run hb
              have hlong := hmore (c :: u) v rfl (List.cons_ne_nil _ _)
                (List.forall_mem_cons.mpr ⟨hc, hu⟩)
              rw [Way.past_past] at hfound
              cases hfound.symm.trans hlong
            dsimp only
            rw [hnone, if_pos rfl, Option.none_or]
          · rfl
  | cons c u ih =>
      rw [List.cons_append] at h
      have htake : (loop 0 none true (set s)).answer? k (w.past [c] (u ++ v)) =
          k (w.past (c :: u) v) := by
        rw [ih (w := w.past [c] (u ++ v)) rfl (fun d hd => hu d (List.mem_cons_of_mem c hd)),
          Way.past_past, List.singleton_append]
        · intro a b hab hne ha
          rw [Way.past_past]
          exact hmore a b hab hne ha
        · rw [Way.past_past]
          refine hk.imp_right fun hnone a b hab hne => ?_
          rw [Way.past_past]
          exact hnone (c :: a) b (congrArg (c :: ·) hab) hne
      rw [answer?_run_cons true h, if_pos (hu c List.mem_cons_self)]
      dsimp only
      rw [if_pos rfl, htake]
      obtain hsome | hnone := hk
      · rw [Option.or_of_isSome hsome]
      · have hstay : k w = none := by
          have hall := hnone [] (c :: u) rfl (List.cons_ne_nil _ _)
          rwa [List.cons_append, Way.past_nil h] at hall
        rw [hstay, Option.or_none]

/-- A lazy run ends where something is found first, or where it has to. -/
theorem answer?_lazy (h : w.rest = u ++ v) (hu : ∀ c ∈ u, s.mem c = true)
    (hless : ∀ a b, u = a ++ b → b ≠ [] → k (w.past a (b ++ v)) = none)
    (hk : (k (w.past u v)).isSome = true ∨ ∀ c ∈ v.head?, s.mem c = false) :
    (loop 0 none false (set s)).answer? k w = k (w.past u v) := by
  induction u generalizing w with
  | nil =>
      rw [List.nil_append] at h
      rw [Way.past_nil h] at hk ⊢
      cases v with
      | nil => rw [answer?_run_nil false h]
      | cons c t =>
          rw [answer?_run_cons false h]
          obtain hsome | hstop := hk
          · dsimp only
            rw [if_neg Bool.false_ne_true, Option.or_of_isSome hsome, ite_self]
          · rw [if_neg (Bool.eq_false_iff.mp (hstop c rfl))]
  | cons c u ih =>
      rw [List.cons_append] at h
      have hstay : k w = none := by
        have hall := hless [] (c :: u) rfl (List.cons_ne_nil _ _)
        rwa [List.cons_append, Way.past_nil h] at hall
      rw [answer?_run_cons false h, if_pos (hu c List.mem_cons_self)]
      dsimp only
      rw [hstay, if_neg Bool.false_ne_true, Option.none_or,
        ih (w := w.past [c] (u ++ v)) rfl (fun d hd => hu d (List.mem_cons_of_mem c hd)),
        Way.past_past, List.singleton_append]
      · intro a b hab hne
        rw [Way.past_past]
        exact hless (c :: a) b (congrArg (c :: ·) hab) hne
      · rwa [Way.past_past]

end

end Regex

end LintFindings
