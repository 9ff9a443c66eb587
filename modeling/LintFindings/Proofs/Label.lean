/-
What the reference of a label keeps of it.

A label is cut down to what stands behind its repository, and of the segments of that
the empty ones and the dots are dropped.  `Keeps` says so without computing anything:
which double slash is the first, and how many at signs there are, is part of the
statement.

What is left is encoded byte by byte.  A byte is one character or a triple, and which of
the two can be told from the percent sign, so the bytes of a segment are read back from
it (`bytes?_encodeSegment`) and no two texts have one encoding.  From that follows what a
dot can do: a segment that is written as a dot was a dot before, whatever percent signs
the label had, and those are dropped.  No encoded segment has a slash, so the segments of
a reference are the ones it was joined from, and `reference_faithful` puts the two
together.
-/
import LintFindings.Label
import LintFindings.Proofs.Text.Lines
import LintFindings.Proofs.Text.Utf8

namespace LintFindings

namespace Text

variable {mark t front rest : Text}

/-! ### The first mark in a text -/

/-- A mark stands in a text between `front` and `rest`, and nowhere further ahead. -/
structure CutAt (mark t front rest : Text) : Prop where
  eq : t = front ++ mark ++ rest
  first : ∀ front' rest', t = front' ++ mark ++ rest' → front.length ≤ front'.length

theorem CutAt.rest_unique {front' rest' : Text} (h : CutAt mark t front rest)
    (h' : CutAt mark t front' rest') : rest = rest' := by
  have hlength : front.length = front'.length :=
    Nat.le_antisymm (h.first _ _ h'.eq) (h'.first _ _ h.eq)
  have hjoined : front ++ (mark ++ rest) = front' ++ (mark ++ rest') := by
    rw [← List.append_assoc, ← h.eq, h'.eq, List.append_assoc]
  exact (List.append_cancel_left_eq ..).mp (List.append_inj hjoined hlength).2

theorem cutAt_of_afterFirst? (h : afterFirst? mark t = some rest) :
    ∃ front, CutAt mark t front rest := by
  induction t with
  | nil => exact ⟨[], after?_eq_some_iff.mp h, fun _ _ _ => Nat.zero_le _⟩
  | cons c t ih =>
      unfold afterFirst? at h
      split at h
      · rename_i u hu
        cases h
        exact ⟨[], after?_eq_some_iff.mp hu, fun _ _ _ => Nat.zero_le _⟩
      · rename_i hnone
        obtain ⟨front, heq, hfirst⟩ := ih h
        refine ⟨c :: front, by rw [heq]; rfl, ?_⟩
        intro front' rest' heq'
        cases front' with
        | nil =>
            have hafter : after? mark (c :: t) = some rest' := after?_eq_some_iff.mpr heq'
            rw [hafter] at hnone
            cases hnone
        | cons d front' =>
            exact Nat.succ_le_succ (hfirst front' rest' (List.cons.inj heq').2)

theorem afterFirst?_ne_none (front rest : Text) :
    afterFirst? mark (front ++ mark ++ rest) ≠ none := by
  induction front with
  | nil =>
      have hafter : after? mark (mark ++ rest) = some rest := after?_eq_some_iff.mpr rfl
      cases hjoined : mark ++ rest with
      | nil =>
          rw [hjoined] at hafter
          simp [hjoined, afterFirst?, hafter]
      | cons c t =>
          rw [hjoined] at hafter
          simp [hjoined, afterFirst?, hafter]
  | cons c front ih =>
      simp only [List.cons_append, afterFirst?]
      split
      · simp
      · exact ih

/-- **What stands behind the first mark** is what `afterFirst?` finds. -/
theorem afterFirst?_eq_some_iff :
    afterFirst? mark t = some rest ↔ ∃ front, CutAt mark t front rest := by
  refine ⟨cutAt_of_afterFirst?, ?_⟩
  rintro ⟨front, hcut⟩
  cases hfound : afterFirst? mark t with
  | none =>
      rw [hcut.eq] at hfound
      exact absurd hfound (afterFirst?_ne_none front rest)
  | some rest' =>
      obtain ⟨front', hcut'⟩ := cutAt_of_afterFirst? hfound
      rw [hcut.rest_unique hcut']

theorem afterFirst?_eq_none_iff :
    afterFirst? mark t = none ↔ ∀ front rest, t ≠ front ++ mark ++ rest := by
  constructor
  · rintro h front rest rfl
    exact afterFirst?_ne_none front rest h
  · intro h
    by_contra hsome
    obtain ⟨rest, hrest⟩ := Option.ne_none_iff_exists'.mp hsome
    obtain ⟨front, hcut⟩ := cutAt_of_afterFirst? hrest
    exact h front rest hcut.eq

end Text

namespace Label

variable {label t s rest : Text} {b : UInt8} {c : Char}

/-! ### The segments of a label -/

/-- What a trimmed label has behind its repository: what follows the first double slash or,
where there is none, what follows the at signs. -/
inductive Behind (t : Text) : Text → Prop
  | slashes {front rest : Text} : Text.CutAt "//".toList t front rest → Behind t rest
  | signs {n : Nat} {rest : Text} : (∀ front rest, t ≠ front ++ "//".toList ++ rest) →
      t = List.replicate n '@' ++ rest → rest.head? ≠ some '@' → Behind t rest

/-- What a label keeps: the segments behind its repository, without the empty ones and the
dots. -/
def Keeps (label : Text) (kept : List Text) : Prop :=
  ∃ rest, Behind (Text.trim label) rest ∧
    kept = (rest.splitOnP fun c => c == ':' || c == '/').filter
      (· ∉ [[], ".".toList, "..".toList])

/-- The at signs in front of a text, however many, and what follows them. -/
theorem dropWhile_signs :
    t.dropWhile (· == '@') = rest ↔
      (∃ n, t = List.replicate n '@' ++ rest) ∧ rest.head? ≠ some '@' := by
  constructor
  · rintro rfl
    refine ⟨⟨(t.takeWhile (· == '@')).length, ?_⟩, ?_⟩
    · have hsigns : t.takeWhile (· == '@')
          = List.replicate (t.takeWhile (· == '@')).length '@' :=
        List.eq_replicate_iff.mpr ⟨rfl, fun c hc => by simpa using List.mem_takeWhile_imp hc⟩
      rw [← hsigns]
      exact List.takeWhile_append_dropWhile.symm
    · intro hhead
      have hnot := List.head?_dropWhile_not (· == '@') t
      rw [hhead] at hnot
      exact Bool.noConfusion hnot
  · rintro ⟨⟨n, rfl⟩, hhead⟩
    refine Text.dropWhile_run (fun c hc => ?_) fun c hc => ?_
    · rw [(List.mem_replicate.mp hc).2]
      rfl
    · rw [beq_eq_false_iff_ne]
      rintro rfl
      exact hhead hc

theorem behind_iff : Behind (Text.trim label) rest ↔ path label = rest := by
  have hpath : path label = (Text.afterFirst? "//".toList (Text.trim label)).getD
      ((Text.trim label).dropWhile (· == '@')) := rfl
  rw [hpath]
  cases hfirst : Text.afterFirst? "//".toList (Text.trim label) with
  | some rest' =>
      obtain ⟨front, hcut⟩ := Text.afterFirst?_eq_some_iff.mp hfirst
      rw [Option.getD_some]
      constructor
      · rintro (hcut' | ⟨hnone, -, -⟩)
        · exact hcut.rest_unique hcut'
        · exact absurd hcut.eq (hnone _ _)
      · rintro rfl
        exact .slashes hcut
  | none =>
      have hnone := Text.afterFirst?_eq_none_iff.mp hfirst
      rw [Option.getD_none, dropWhile_signs]
      constructor
      · rintro (hcut | ⟨-, heq, hhead⟩)
        · exact absurd hcut.eq (hnone _ _)
        · exact ⟨⟨_, heq⟩, hhead⟩
      · rintro ⟨⟨n, heq⟩, hhead⟩
        exact .signs hnone heq hhead

/-- **A label keeps the segments that its reference is made of**, and no others. -/
theorem keeps_iff {kept : List Text} : Keeps label kept ↔ kept = segments label := by
  have hsegments : segments label
      = ((path label).splitOnP fun c => c == ':' || c == '/').filter
        (· ∉ [[], ".".toList, "..".toList]) := by
    rw [segments, Text.pieces_eq_splitOnP]
    simp
  constructor
  · rintro ⟨rest, hrest, rfl⟩
    rw [hsegments, behind_iff.mp hrest]
  · rintro rfl
    exact ⟨path label, behind_iff.mpr rfl, hsegments⟩

/-! ### Encoded segments -/

/-- The signs that stand for themselves in a segment, as letters and digits do. -/
def plainSigns : Text := "-._~!$&'()*+,;=@".toList

/-- What a segment of a reference may be: characters that stand for themselves, and triples of
a percent sign and two capital digits. -/
inductive Encoded : Text → Prop
  | nil : Encoded []
  | plain {c : Char} {t : Text} : c.isAlphanum = true ∨ c ∈ plainSigns → Encoded t →
      Encoded (c :: t)
  | triple {high low : Char} {t : Text} : high ∈ "0123456789ABCDEF".toList →
      low ∈ "0123456789ABCDEF".toList → Encoded t → Encoded ('%' :: high :: low :: t)

/-- The bytes that a segment stands for. -/
def bytes? : Text → Option (List UInt8)
  | [] => some []
  | '%' :: high :: low :: t =>
    (Text.hexNumber? [high, low]).bind fun n => (bytes? t).map (UInt8.ofNat n :: ·)
  | c :: t =>
    if c = '%' ∨ 0x80 ≤ c.toNat then none else (bytes? t).map (UInt8.ofNat c.toNat :: ·)

/-- A byte that stands for itself is an ASCII character. -/
theorem toNat_of_isPlain (h : isPlain b = true) :
    b.toNat < 0x80 ∧ (Char.ofNat b.toNat).toNat = b.toNat := by
  have hsmall : b.toNat < 0x80 := by
    simp only [isPlain, Bool.and_eq_true, decide_eq_true_eq] at h
    exact h.1
  refine ⟨hsmall, ?_⟩
  rw [Char.ofNat, dif_pos (.inl (Nat.lt_trans hsmall (by decide)))]
  rfl

theorem plain_of_isPlain (h : isPlain b = true) :
    (Char.ofNat b.toNat).isAlphanum = true ∨ Char.ofNat b.toNat ∈ plainSigns := by
  simp only [isPlain, Bool.and_eq_true, Bool.or_eq_true, List.contains_iff_mem] at h
  exact h.2

theorem ne_of_plain {d : Char} (hc : c.isAlphanum = true ∨ c ∈ plainSigns)
    (halphanum : d.isAlphanum = false) (hsign : d ∉ plainSigns) : c ≠ d := by
  rintro rfl
  rcases hc with hc | hc
  · rw [hc] at halphanum
    exact Bool.noConfusion halphanum
  · exact hsign hc

theorem encoded_encodeByte (b : UInt8) (ht : Encoded t) : Encoded (encodeByte b ++ t) := by
  have hdigit : ∀ n < 16, Text.hexDigit n ∈ "0123456789ABCDEF".toList := by decide
  have hb := b.toNat_lt
  by_cases hplain : isPlain b = true
  · rw [encodeByte, if_pos hplain]
    exact .plain (plain_of_isPlain hplain) ht
  · rw [encodeByte, if_neg hplain]
    exact .triple (hdigit _ (by omega)) (hdigit _ (by omega)) ht

/-- **A byte is read back from its encoding**, whatever follows it. -/
theorem bytes?_encodeByte (b : UInt8) (t : Text) :
    bytes? (encodeByte b ++ t) = (bytes? t).map (b :: ·) := by
  have hb := b.toNat_lt
  by_cases hplain : isPlain b = true
  · obtain ⟨hsmall, htoNat⟩ := toNat_of_isPlain hplain
    have hpercent : Char.ofNat b.toNat ≠ '%' :=
      ne_of_plain (plain_of_isPlain hplain) (by decide) (by decide)
    rw [encodeByte, if_pos hplain, List.singleton_append, bytes?]
    · rw [if_neg (by simp only [hpercent, htoNat, false_or]; omega), htoNat, UInt8.ofNat_toNat]
    · intro _ _ _ heq _
      exact hpercent heq
  · have hvalue : ∀ n < 16, Text.hexValue? (Text.hexDigit n) = some n := by decide
    have hnumber : Text.hexNumber? [Text.hexDigit (b.toNat / 16), Text.hexDigit (b.toNat % 16)]
        = some b.toNat := by
      have hjoin : b.toNat / 16 * 16 + b.toNat % 16 = b.toNat := by omega
      simp [Text.hexNumber?, hvalue _ (show b.toNat / 16 < 16 by omega),
        hvalue _ (show b.toNat % 16 < 16 by omega), hjoin]
    rw [encodeByte, if_neg hplain]
    simp [bytes?, hnumber]

theorem encoded_encodeSegment (s : Text) : Encoded (encodeSegment s) := by
  unfold encodeSegment
  induction Utf8.encode s with
  | nil => exact .nil
  | cons b bytes ih => exact encoded_encodeByte b ih

theorem bytes?_encodeSegment (s : Text) : bytes? (encodeSegment s) = some (Utf8.encode s) := by
  unfold encodeSegment
  induction Utf8.encode s with
  | nil => rfl
  | cons b bytes ih => rw [List.flatMap_cons, bytes?_encodeByte, ih, Option.map_some]

/-- **No two texts have one encoding.** -/
theorem encodeSegment_inj : encodeSegment s = encodeSegment t ↔ s = t := by
  refine ⟨fun h => ?_, fun h => h ▸ rfl⟩
  have hbytes : Utf8.encode s = Utf8.encode t := by
    rw [← Option.some_inj, ← bytes?_encodeSegment, ← bytes?_encodeSegment, h]
  rw [← Utf8.decodeLossy_encode s, hbytes, Utf8.decodeLossy_encode]

theorem Encoded.notMem {d : Char} (ht : Encoded t) (hpercent : d ≠ '%')
    (halphanum : d.isAlphanum = false) (hsign : d ∉ plainSigns) : d ∉ t := by
  have hdigit : ∀ c ∈ "0123456789ABCDEF".toList, c.isAlphanum = true :=
    List.all_eq_true.mp (by decide)
  have hne {c : Char} (hc : c.isAlphanum = true ∨ c ∈ plainSigns) : d ≠ c :=
    (ne_of_plain hc halphanum hsign).symm
  induction ht with
  | nil => simp
  | plain hplain _ ih => simp [hne hplain, ih]
  | triple hhigh hlow _ ih =>
      simp [hpercent, hne (.inl (hdigit _ hhigh)), hne (.inl (hdigit _ hlow)), ih]

/-! ### References -/

theorem slash_notMem_encodeSegment (s : Text) : '/' ∉ encodeSegment s :=
  (encoded_encodeSegment s).notMem (by decide) (by decide) (by decide)

theorem reference_of_segments (h : segments label ≠ []) :
    reference label = ['/'].intercalate ((segments label).map encodeSegment) := by
  unfold reference
  split
  · rename_i hnil
    exact absurd hnil h
  · rfl

/-- **The slashes of a reference part what was joined.** -/
theorem splitOn_reference (h : segments label ≠ []) :
    (reference label).splitOn '/' = (segments label).map encodeSegment := by
  rw [reference_of_segments h]
  refine List.splitOn_intercalate '/' ?_ (by simpa using h)
  intro s hs
  obtain ⟨segment, -, rfl⟩ := List.mem_map.mp hs
  exact slash_notMem_encodeSegment segment

theorem kept_of_mem_segments (h : s ∈ segments label) :
    s ≠ [] ∧ s ≠ ".".toList ∧ s ≠ "..".toList := by
  have hkept := (List.mem_filter.mp h).2
  exact of_decide_eq_true hkept

/-- **No kept segment is written as a dot segment, or as nothing.** -/
theorem encodeSegment_of_mem_segments (h : s ∈ segments label) :
    encodeSegment s ≠ [] ∧ encodeSegment s ≠ ".".toList ∧ encodeSegment s ≠ "..".toList := by
  obtain ⟨hne, hdot, hdots⟩ := kept_of_mem_segments h
  -- the dots are their own encodings
  exact ⟨fun h => hne (encodeSegment_inj.mp (h.trans (by decide))),
    fun h => hdot (encodeSegment_inj.mp (h.trans (by decide))),
    fun h => hdots (encodeSegment_inj.mp (h.trans (by decide)))⟩

theorem reference_eq_dot_iff : reference label = ['.'] ↔ segments label = [] := by
  constructor
  · intro h
    by_contra hne
    have hsplit := splitOn_reference hne
    rw [h] at hsplit
    obtain ⟨s, ss, hs⟩ := List.ne_nil_iff_exists_cons.mp hne
    have hmem : s ∈ segments label := hs ▸ List.mem_cons_self
    have hdot := (encodeSegment_of_mem_segments hmem).2.1
    rw [hs, List.map_cons] at hsplit
    exact hdot (List.cons.inj hsplit).1.symm
  · intro h
    simp [reference, h]

/-- A relative reference that is a path and nothing more: its segments are well encoded and
not empty, and unless it is a lone dot, none of them is one. -/
structure PathOnly (t : Text) : Prop where
  encoded : ∀ s ∈ t.splitOn '/', Encoded s ∧ s ≠ []
  noDots : t ≠ ['.'] → ∀ s ∈ t.splitOn '/', s ≠ ".".toList ∧ s ≠ "..".toList
  relative : t.head? ≠ some '/'
  noScheme : ':' ∉ t
  noQuery : '?' ∉ t
  noFragment : '#' ∉ t

theorem notMem_intercalate {d : Char} {ss : List Text} (hslash : d ≠ '/')
    (hss : ∀ s ∈ ss, d ∉ s) : d ∉ ['/'].intercalate ss := by
  induction ss with
  | nil => simp
  | cons s ss ih =>
      cases ss with
      | nil => simpa using hss s
      | cons s' ss =>
          have hs := hss s List.mem_cons_self
          have hrest := ih fun s' hs' => hss s' (List.mem_cons_of_mem _ hs')
          simp [List.intercalate_cons_cons, hs, hslash, hrest]

/-- A sign that no segment may have is not in a path. -/
theorem notMem_of_encoded {d : Char} (ht : ∀ s ∈ t.splitOn '/', Encoded s) (hslash : d ≠ '/')
    (hpercent : d ≠ '%') (halphanum : d.isAlphanum = false) (hsign : d ∉ plainSigns) : d ∉ t := by
  rw [← show List.intercalate ['/'] (t.splitOn '/') = t from List.intercalate_splitOn '/']
  exact notMem_intercalate hslash fun s hs => (ht s hs).notMem hpercent halphanum hsign

/-- The signs that a path must not have are in none of its segments. -/
theorem pathOnly_of_segments (hencoded : ∀ s ∈ t.splitOn '/', Encoded s ∧ s ≠ [])
    (hdots : t ≠ ['.'] → ∀ s ∈ t.splitOn '/', s ≠ ".".toList ∧ s ≠ "..".toList) :
    PathOnly t where
  encoded := hencoded
  noDots := hdots
  relative := by
    intro hhead
    obtain ⟨u, rfl⟩ := List.head?_eq_some_iff.mp hhead
    have hfirst : [] ∈ ('/' :: u).splitOn '/' := by
      rw [List.splitOn, List.splitOnP_cons_eq_if_modifyHead]
      simp
    exact (hencoded [] hfirst).2 rfl
  noScheme := notMem_of_encoded (fun s hs => (hencoded s hs).1) (by decide) (by decide)
    (by decide) (by decide)
  noQuery := notMem_of_encoded (fun s hs => (hencoded s hs).1) (by decide) (by decide)
    (by decide) (by decide)
  noFragment := notMem_of_encoded (fun s hs => (hencoded s hs).1) (by decide) (by decide)
    (by decide) (by decide)

/-- **The reference of a label is a path**, and goes neither up nor elsewhere. -/
theorem pathOnly_reference (label : Text) : PathOnly (reference label) := by
  by_cases hsegments : segments label = []
  · rw [reference_eq_dot_iff.mpr hsegments]
    refine pathOnly_of_segments ?_ (fun hne => absurd rfl hne)
    intro s hs
    have hone : (['.'] : Text).splitOn '/' = [['.']] := List.splitOnP_eq_singleton (by simp)
    rw [hone, List.mem_singleton] at hs
    rw [hs]
    exact ⟨.plain (.inr (by decide)) .nil, by decide⟩
  · have hmem {s : Text} (hs : s ∈ (reference label).splitOn '/') :
        ∃ segment ∈ segments label, encodeSegment segment = s := by
      rw [splitOn_reference hsegments] at hs
      exact List.mem_map.mp hs
    refine pathOnly_of_segments ?_ ?_
    · intro s hs
      obtain ⟨segment, hsegment, rfl⟩ := hmem hs
      exact ⟨encoded_encodeSegment segment, (encodeSegment_of_mem_segments hsegment).1⟩
    · intro _ s hs
      obtain ⟨segment, hsegment, rfl⟩ := hmem hs
      exact (encodeSegment_of_mem_segments hsegment).2

/-! ### No blanks -/

/-- A path is not empty, and nothing in it is blank. -/
theorem PathOnly.trim_ne_nil (h : PathOnly t) : Text.trim t ≠ [] := by
  have hsigns : ∀ c ∈ plainSigns, isBlank c = false := fun c hc =>
    eq_false_of_ne_true (List.any_eq_false.mp (by decide) c hc)
  cases t with
  | nil => exact absurd rfl (h.encoded [] (by simp)).2
  | cons c t =>
      refine Text.trim_ne_nil_of_mem (c := c) List.mem_cons_self ?_
      by_contra hblank
      have halphanum : c.isAlphanum = false := by
        by_contra htrue
        exact hblank (Text.isBlank_of_isAlphanum (by simpa using htrue))
      refine notMem_of_encoded (fun s hs => (h.encoded s hs).1) ?_ ?_ halphanum
        (fun hc => hblank (hsigns c hc)) List.mem_cons_self
      · rintro rfl
        exact hblank rfl
      · rintro rfl
        exact hblank rfl

/-- **The reference of a label is never blank.** -/
theorem trim_reference_ne_nil (label : Text) : Text.trim (reference label) ≠ [] :=
  (pathOnly_reference label).trim_ne_nil

/-! ### Labels with one reference -/

/-- Labels with one reference have the same segments. -/
theorem reference_inj {other : Text} :
    reference other = reference label ↔ segments other = segments label := by
  constructor
  · intro h
    by_cases hnil : segments label = []
    · rw [hnil, ← reference_eq_dot_iff, h, reference_eq_dot_iff, hnil]
    · have hother : segments other ≠ [] := by
        rw [Ne, ← reference_eq_dot_iff, h, reference_eq_dot_iff]
        exact hnil
      have hmap : (segments other).map encodeSegment = (segments label).map encodeSegment := by
        rw [← splitOn_reference hother, h, splitOn_reference hnil]
      exact List.map_injective_iff.mpr (fun _ _ => encodeSegment_inj.mp) hmap
  · intro h
    rw [reference, reference, h]

/-- **A reference is a path that keeps what the label names.**  Its segments are those of the
label, byte for byte and in their order, so labels have one reference only if they keep the
same. -/
theorem reference_faithful (label : Text) :
    PathOnly (reference label) ∧
    ∃ kept, (∀ ss, Keeps label ss ↔ ss = kept) ∧
      (reference label = ['.'] ↔ kept = []) ∧
      (kept = [] ∨ ((reference label).splitOn '/').map bytes? = kept.map (some ∘ Utf8.encode)) ∧
      ∀ other, reference other = reference label ↔ Keeps other kept := by
  refine ⟨pathOnly_reference label, segments label, fun ss => keeps_iff, reference_eq_dot_iff,
    ?_, fun other => ?_⟩
  · by_cases hsegments : segments label = []
    · exact .inl hsegments
    · right
      rw [splitOn_reference hsegments, List.map_map]
      exact List.map_congr_left fun s _ => bytes?_encodeSegment s
  · rw [keeps_iff, reference_inj, eq_comm]

end Label

end LintFindings
